import AgentOrch.Construction.Spawn
import AgentOrch.Properties.History
import AgentOrch.Properties.Iteration
import AgentOrch.Properties.LoopBudget
import AgentOrch.Properties.SealedRecords

/-!
# From the provider's return to the commit

Every value a provider controls ends in a sink of its own: token counts in integer columns, the
convergence record in `json.loads`, a reviewer's text in the report file, a receipt in the
manifest.  `Harmless` lists what the sinks accept; `finishRun_returns_iff` says that the tail of a
running task returns and leaves `running` exactly for the results in it.
-/

namespace AgentOrch

open Py Json

/-! ## Errors of the convergence gate -/

/-- The errors the gate turns into a hold: their message can be stored. -/
def Exc.Holds (e : Exc) : Prop := ∃ m, e = .convergenceError m ∧ Encodable m

lemma require_eq_error {condition : Bool} {exc e : Exc} :
    require condition exc = .error e ↔ condition = false ∧ e = exc := by
  cases condition <;> simp [require, eq_comm]

section
variable {rt : Runtime} {e : Exc}

lemma convergenceIdentities_error {record : List (Text × Value)} {name : Text}
    (hname : Encodable name) (h : convergenceIdentities record name = .error e) : e.Holds := by
  have hmessage : Encodable ("convergence " ++ name ++
      " must be a list of non-empty failure-scenario identities") := by
    simp only [encodable_append]
    exact ⟨⟨encodable_ofString _, hname⟩, encodable_ofString _⟩
  unfold convergenceIdentities at h
  split at h
  · split at h <;> cases h
    exact ⟨_, rfl, hmessage⟩
  · cases h
    exact ⟨_, rfl, hmessage⟩

lemma readRepeatRecord_error {record : List (Text × Value)}
    (h : readRepeatRecord rt record = .error e) : e.Holds := by
  rcases bind_eq_error.mp h with h | ⟨_, -, h⟩
  · obtain ⟨-, rfl⟩ := require_eq_error.mp h
    refine ⟨_, rfl, ?_⟩
    simp only [encodable_append]
    exact ⟨⟨⟨encodable_ofString _, encodable_reprList _ _⟩, encodable_ofString _⟩,
      encodable_reprList _ _⟩
  · split at h
    · cases h
      exact ⟨_, rfl, encodable_append.mpr ⟨encodable_ofString _, encodable_reprOption _ _⟩⟩
    · rcases bind_eq_error.mp h with h | ⟨_, -, h⟩
      · exact convergenceIdentities_error (encodable_ofString _) h
      rcases bind_eq_error.mp h with h | ⟨_, -, h⟩
      · exact convergenceIdentities_error (encodable_ofString _) h
      rcases bind_eq_error.mp h with h | ⟨_, -, h⟩
      · exact convergenceIdentities_error (encodable_ofString _) h
      rcases bind_eq_error.mp h with h | ⟨_, -, h⟩
      · exact convergenceIdentities_error (encodable_ofString _) h
      cases h

lemma readFirstRecord_error {record : List (Text × Value)}
    (h : readFirstRecord rt record = .error e) : e.Holds := by
  rcases bind_eq_error.mp h with h | ⟨_, -, h⟩
  · obtain ⟨-, rfl⟩ := require_eq_error.mp h
    exact ⟨_, rfl, encodable_ofString _⟩
  rcases bind_eq_error.mp h with h | ⟨_, -, h⟩
  · obtain ⟨-, rfl⟩ := require_eq_error.mp h
    refine ⟨_, rfl, ?_⟩
    simp only [encodable_append]
    exact ⟨⟨⟨encodable_ofString _, encodable_reprList _ _⟩, encodable_ofString _⟩,
      encodable_reprList _ _⟩
  rcases bind_eq_error.mp h with h | ⟨_, -, h⟩
  · exact convergenceIdentities_error (encodable_ofString _) h
  rcases bind_eq_error.mp h with h | ⟨_, -, h⟩
  · obtain ⟨-, rfl⟩ := require_eq_error.mp h
    exact ⟨_, rfl, encodable_ofString _⟩
  rcases bind_eq_error.mp h with h | ⟨_, -, h⟩
  · exact convergenceIdentities_error (encodable_ofString _) h
  cases h

lemma readRecord_error {shape : Option Bool} {value : Value}
    (h : readRecord rt shape value = .error e) : e.Holds := by
  unfold readRecord at h
  split at h
  · split_ifs at h
    · exact readRepeatRecord_error h
    · exact readFirstRecord_error h
  · cases h
    exact ⟨_, rfl, encodable_ofString _⟩

lemma convergenceBody_error {t : Text} (h : convergenceBody t = .error e) : e.Holds := by
  unfold convergenceBody at h
  dsimp only at h
  split_ifs at h
  · cases h
    exact ⟨_, rfl, encodable_ofString _⟩
  · cases h
    refine ⟨_, rfl, ?_⟩
    simp only [encodable_append]
    exact ⟨⟨⟨⟨encodable_ofString _, encodable_decimal _⟩, encodable_ofString _⟩,
      encodable_decimal _⟩, encodable_ofString _⟩
  · split at h <;> cases h
    exact ⟨_, rfl, encodable_ofString _⟩

/-- The record of a text, if it has one, is JSON as far as `json.loads` gets. -/
def RecordDecodes (rt : Runtime) (t : Text) : Prop :=
  ∀ body e, convergenceBody t = .ok body → rt.loads false body = .error e →
    ∃ m, e = .jsonDecodeError m

lemma loads_jsonDecodeError {unique : Bool} {t m : Text}
    (h : rt.loads unique t = .error (.jsonDecodeError m)) : Encodable m := by
  unfold Runtime.loads at h
  split at h <;> cases h
  exact rt.jsonErrorText_encodable _

/-- The message of a hold can be stored. -/
lemma extractConvergence_message {t m : Text} {shape : Option Bool}
    (h : extractConvergence rt t shape = .error (.convergenceError m)) : Encodable m := by
  have hmessage : ∀ {e : Exc}, e.Holds → e = .convergenceError m → Encodable m := by
    rintro e ⟨m', rfl, henc⟩ ⟨⟩
    exact henc
  rcases bind_eq_error.mp h with hbody | ⟨body, hbody, hread⟩
  · exact hmessage (convergenceBody_error hbody) rfl
  · cases hloads : rt.loads false body with
    | ok value =>
        rw [hloads] at hread
        exact hmessage (readRecord_error hread) rfl
    | error e =>
        rw [hloads] at hread
        cases e with
        | jsonDecodeError m' =>
            cases hread
            exact encodable_append.mpr ⟨encodable_ofString _, loads_jsonDecodeError hloads⟩
        | convergenceError m' =>
            unfold Runtime.loads at hloads
            split at hloads <;> cases hloads
        | _ => cases hread

/-- Extraction raises a hold and nothing else exactly when the record decodes. -/
lemma extractConvergence_holds {t : Text} {shape : Option Bool} :
    (∀ e, extractConvergence rt t shape = .error e → e.Holds) ↔ RecordDecodes rt t := by
  constructor
  · intro h body e hbody hloads
    by_contra hne
    have herror : extractConvergence rt t shape = .error e := by
      refine bind_eq_error.mpr (.inr ⟨body, hbody, ?_⟩)
      rw [hloads]
      cases e <;> first | rfl | exact absurd ⟨_, rfl⟩ hne
    obtain ⟨m, rfl, -⟩ := h e herror
    unfold Runtime.loads at hloads
    split at hloads <;> cases hloads
  · intro h e herror
    rcases bind_eq_error.mp herror with hbody | ⟨body, hbody, hread⟩
    · exact convergenceBody_error hbody
    · cases hloads : rt.loads false body with
      | ok value =>
          rw [hloads] at hread
          exact readRecord_error hread
      | error e' =>
          obtain ⟨m, rfl⟩ := h body e' hbody hloads
          rw [hloads] at hread
          cases hread
          exact ⟨_, rfl, encodable_append.mpr ⟨encodable_ofString _,
            loads_jsonDecodeError hloads⟩⟩

lemma checkPart_error {name : Text} {declared computed : List Text} (hname : Encodable name)
    (h : checkPart rt name declared computed = .error e) : e.Holds := by
  obtain ⟨-, rfl⟩ := require_eq_error.mp h
  refine ⟨_, rfl, ?_⟩
  simp only [encodable_append]
  exact ⟨⟨⟨⟨⟨⟨⟨encodable_ofString _, hname⟩, encodable_ofString _⟩, encodable_reprList _ _⟩,
    encodable_ofString _⟩, hname⟩, encodable_ofString _⟩, encodable_reprList _ _⟩

lemma validateConvergence_error {record : ConvergenceRecord} {prior historical : List Text}
    (hscored : record.scored.isSome)
    (h : validateConvergence rt record prior historical = .error e) : e.Holds := by
  obtain ⟨scored, hs⟩ := Option.isSome_iff_exists.mp hscored
  unfold validateConvergence at h
  simp only [hs] at h
  rcases bind_eq_error.mp h with h | ⟨_, -, h⟩
  · exact checkPart_error (encodable_ofString _) h
  rcases bind_eq_error.mp h with h | ⟨_, -, h⟩
  · exact checkPart_error (encodable_ofString _) h
  rcases bind_eq_error.mp h with h | ⟨_, -, h⟩
  · exact checkPart_error (encodable_ofString _) h
  rcases bind_eq_error.mp h with h | ⟨_, -, h⟩
  · obtain ⟨-, rfl⟩ := require_eq_error.mp h
    refine ⟨_, rfl, ?_⟩
    simp only [encodable_append]
    exact ⟨⟨⟨encodable_ofString _, encodable_repr _ _⟩, encodable_ofString _⟩, encodable_repr _ _⟩
  · cases h

end

/-! ## What the sinks accept -/

/-- `SQLite` can store the counts. -/
def Usage.Fits (u : Usage) : Prop :=
  u.inputTokens.all fitsInt64 = true ∧ u.outputTokens.all fitsInt64 = true ∧
    u.totalTokens.all fitsInt64 = true

namespace RunResult

/-- The run ended cleanly and its text states an allowed outcome. -/
def EndsIn (rt : Runtime) (allowed : List Text) (raw : RunResult) (outcome : Text) : Prop :=
  raw.containmentStop = none ∧ raw.timedOut = false ∧ raw.exitCode = some 0 ∧
    raw.finalResponseError = none ∧ raw.reviewRejected = false ∧
    readOutcome rt raw.authoritativeText = .read outcome ∧ outcome ∈ allowed

/-- The member of the manifest that a receipt adds. -/
def receiptMember (raw : RunResult) : Receipt :=
  (raw.executionReceipt.map fun r => (("execution_receipt" : Text), Value.obj r)).toList

/-- The token counts of the display stream can be stored. -/
def CountsFit (rt : Runtime) (raw : RunResult) : Prop :=
  ∀ usage, extractUsage rt raw.output = .ok usage → usage.Fits

/-- What the sinks for the record, the report and the receipt accept. -/
structure Passes (rt : Runtime) (allowed : List Text) (context : Option ConvergenceContext)
    (raw : RunResult) : Prop where
  record : ∀ outcome c, raw.EndsIn rt allowed outcome → context = some c → c.error = none →
    RecordDecodes rt raw.authoritativeText
  report : raw.isReviewer = true → ∀ t, raw.finalResponse = some t → Encodable t
  receipt : rt.dumps (.obj (("reason", .str "") :: raw.receiptMember)) = .ok ()

/-- The results no sink of the tail refuses. -/
structure Harmless (rt : Runtime) (allowed : List Text) (context : Option ConvergenceContext)
    (raw : RunResult) : Prop extends raw.Passes rt allowed context where
  counts : raw.CountsFit rt

end RunResult

lemma classified_success {rt : Runtime} {allowed : List Text} {raw classified : RunResult}
    (h : classifyResult rt allowed raw = .ok classified) :
    classified.classification = .success ↔ ∃ outcome, raw.EndsIn rt allowed outcome := by
  obtain ⟨-, -, hplain, hstopped⟩ := classifyResult_spec h
  cases hstop : raw.containmentStop with
  | some stop =>
      have hblocked : classified.classification = .blocked :=
        congrArg (fun t => t.2.1) (hstopped stop hstop)
      simp [hblocked, RunResult.EndsIn, hstop]
  | none =>
      have hverdict := hplain hstop
      constructor
      · intro hsuccess
        rw [hsuccess] at hverdict
        obtain ⟨htimed, hexit, herror, hrejected, -, o, -, hread, hmem⟩ :=
          verdictOf_success.mp hverdict.symm
        exact ⟨o, hstop, htimed, hexit, herror, hrejected, hread, hmem⟩
      · rintro ⟨o, -, htimed, hexit, herror, hrejected, hread, hmem⟩
        have hsuccess : verdictOf rt allowed raw =
            (some o, Classification.success, ("success" : Text)) :=
          verdictOf_success.mpr ⟨htimed, hexit, herror, hrejected, rfl, o, rfl, hread, hmem⟩
        rw [hsuccess] at hverdict
        exact congrArg (fun t => t.2.1) hverdict

/-! ### The gate -/

/-- The gate returns, with a reason and an outcome that can be stored, when the record of a
success decodes. -/
lemma scoreWith_returns {rt : Runtime} {context : Option ConvergenceContext}
    {classified : RunResult}
    (hcontext : ∀ c, context = some c → ∀ e, c.error = some e → Encodable e)
    (hreason : Encodable classified.reason)
    (houtcome : ∀ o, classified.outcome = some o → Encodable o)
    (hrecord : classified.classification = .success → ∀ c, context = some c → c.error = none →
      RecordDecodes rt classified.authoritativeText) :
    ∃ scored, scoreWith rt context classified = .ok scored ∧ Encodable scored.reason ∧
      ∀ o, scored.outcome = some o → Encodable o := by
  -- a hold stores its reason and the reserved outcome
  have hheld : ∀ reason, Py.Encodable reason → Py.Encodable (classified.hold reason).reason ∧
      ∀ o, (classified.hold reason).outcome = some o → Py.Encodable o := by
    intro reason h
    refine ⟨h, ?_⟩
    rintro o ⟨⟩
    exact encodable_ofString _
  cases context with
  | none => exact ⟨classified, rfl, hreason, houtcome⟩
  | some c =>
      unfold scoreWith applyConvergence
      dsimp only
      by_cases hclass : classified.classification ≠ .success
      · rw [if_pos hclass]
        exact ⟨classified, rfl, hreason, houtcome⟩
      rw [if_neg hclass]
      cases herror : c.error with
      | some e =>
          exact ⟨_, rfl, hheld _ (encodable_append.mpr
            ⟨encodable_ofString _, hcontext c rfl e herror⟩)⟩
      | none =>
          have hdecodes := hrecord (not_not.mp hclass) c rfl herror
          dsimp only
          cases hextract : extractConvergence rt classified.authoritativeText (some c.isRepeat) with
          | error e =>
              obtain ⟨m, rfl, hm⟩ := extractConvergence_holds.mpr hdecodes e hextract
              exact ⟨_, rfl, hheld _ (encodable_append.mpr ⟨encodable_ofString _, hm⟩)⟩
          | ok record =>
              dsimp only
              by_cases hrepeat : c.isRepeat = true
              · rw [if_pos hrepeat]
                unfold scoreRepeat
                have hscored : record.scored.isSome := by
                  rw [(extractConvergence_some hextract).2.1, hrepeat]
                cases hvalid : validateConvergence rt record c.priorLive c.historicalResolved with
                | error e =>
                    obtain ⟨m, rfl, hm⟩ := validateConvergence_error hscored hvalid
                    exact ⟨_, rfl, hheld _ (encodable_append.mpr ⟨encodable_ofString _, hm⟩)⟩
                | ok verdict =>
                    dsimp only
                    split_ifs
                    · exact ⟨classified, rfl, hreason, houtcome⟩
                    · refine ⟨_, rfl, hheld _ (encodable_append.mpr ⟨encodable_ofString _, ?_⟩)⟩
                      cases verdict <;> exact encodable_ofString _
                    · exact ⟨classified, rfl, hreason, houtcome⟩
              · rw [if_neg hrepeat]
                exact ⟨classified, rfl, hreason, houtcome⟩

/-- Only a run with a context is held. -/
lemma scoreWith_holds {rt : Runtime} {context : Option ConvergenceContext}
    {classified scored : RunResult} (h : scoreWith rt context classified = .ok scored) :
    scored = classified ∨ ∃ c reason, context = some c ∧ scored = classified.hold reason ∧
      classified.classification = .success := by
  cases context with
  | none =>
      cases h
      exact .inl rfl
  | some c =>
      rcases scoreWith_keeps h with hsame | ⟨reason, hheld, hsuccess⟩
      · exact .inl hsame
      · exact .inr ⟨c, reason, rfl, hheld, hsuccess⟩

/-- A success the gate returns on has a record that decodes. -/
lemma recordDecodes_of_scoreWith {rt : Runtime} {c : ConvergenceContext}
    {classified scored : RunResult} (h : scoreWith rt (some c) classified = .ok scored)
    (hsuccess : classified.classification = .success) (herror : c.error = none) :
    RecordDecodes rt classified.authoritativeText := by
  refine (@extractConvergence_holds _ _ (some c.isRepeat)).mp fun e hextract => ?_
  unfold scoreWith applyConvergence at h
  simp only [hsuccess, ne_eq, not_true_eq_false, if_false, herror, hextract] at h
  by_cases hholds : ∃ m, e = .convergenceError m
  · obtain ⟨m, rfl⟩ := hholds
    exact ⟨m, rfl, extractConvergence_message hextract⟩
  · cases e <;> first | exact absurd ⟨_, rfl⟩ hholds | cases h

/-! ### The manifest -/

lemma dumps_eq_ok {rt : Runtime} {v : Value} :
    rt.dumps v = .ok () ↔ v.depth ≤ rt.dumpsDepth ∧ v.encodable = true := by
  unfold Runtime.dumps
  split_ifs with hdepth hencodable
  · simp [Nat.not_le.mpr hdepth]
  · simp [Nat.not_lt.mp hdepth, hencodable]
  · simp [hencodable]

/-- A manifest renders when its receipt does, given texts that encode. -/
lemma dumps_manifestPayload {rt : Runtime} {result : RunResult} :
    rt.dumps (manifestPayload result) = .ok () ↔
      (Encodable result.reason ∧ (∀ o, result.outcome = some o → Encodable o) ∧
        (∀ c, result.candidate = some c →
          (∀ o, c.outcome = some o → Encodable o) ∧ Encodable c.reason)) ∧
      rt.dumps (.obj (("reason", .str "") :: result.receiptMember)) = .ok () := by
  have hclass : Encodable result.classification.text := by
    cases result.classification <;> exact encodable_ofString _
  have hoption : ∀ t : Option Text, (optionalText t).depth = 0 ∧
      ((optionalText t).encodable = true ↔ ∀ o, t = some o → Encodable o) := by
    intro t
    cases t <;> simp [optionalText, Value.depth, Value.encodable]
  have hcandidate : ((∀ o, result.candidate.bind Candidate.outcome = some o → Encodable o) ∧
      (∀ o, result.candidate.map Candidate.reason = some o → Encodable o)) ↔
      ∀ c, result.candidate = some c →
        (∀ o, c.outcome = some o → Encodable o) ∧ Encodable c.reason := by
    cases result.candidate <;> simp
  simp only [dumps_eq_ok, manifestPayload, List.cons_append, List.nil_append, Value.depth,
    depthPairs, Value.encodable, encodablePairs, (hoption _).1, Bool.and_eq_true, hclass,
    decide_true, true_and, encodable_ofString, (hoption _).2, decide_eq_true_eq,
    RunResult.receiptMember, ← hcandidate]
  simp only [Nat.zero_max]
  tauto

/-! ## Returning commits -/

namespace TaskStore

variable {rt : Runtime} {others : Taken} {s s' : TaskStore} {stamp : Stamp} {run : StageRun}
  {stage : Stage} {result : RunResult}

lemma bindRun_eq_ok {outcome : Option Text} : bindRun result outcome = .ok () ↔
    result.exitCode.all fitsInt64 = true ∧ (∀ o, outcome = some o → Encodable o) ∧
      result.durationMs.all fitsInt64 = true ∧ (∀ m, result.model = some m → Encodable m) ∧
      result.usage.Fits := by
  simp only [bindRun, bindInt, bindText, bind_eq_ok, require_eq_ok, exists_const, Usage.Fits,
    Option.all_eq_true, decide_eq_true_eq]

/-- What a commit binds before it writes. -/
lemma commitRun_binds {token : Text} (h : s.commitRun rt others stamp token result = .ok s') :
    result.usage.Fits ∧ sealRunManifest rt result = .ok (manifestOf result) := by
  unfold commitRun at h
  cases hfind : s.findRun token with
  | none =>
      rw [hfind] at h
      cases h
  | some run =>
      simp only [hfind, bind_eq_ok] at h
      obtain ⟨_, _, _, _, stage, _, manifest, hseal, h⟩ := h
      obtain rfl := (sealRunManifest_ok.mp hseal).1
      have hpark : ∀ {runStatus status outcome reason},
          s.parkRun others stamp run stage result (manifestOf result) runStatus status outcome
            reason = .ok s' → result.usage.Fits := by
        intro _ _ outcome _ hpark
        obtain ⟨_, hbind, -⟩ := bind_eq_ok.mp hpark
        exact (bindRun_eq_ok.mp hbind).2.2.2.2
      refine ⟨?_, hseal⟩
      split_ifs at h with hsuccess
      · cases houtcome : result.outcome with
        | none =>
            rw [houtcome] at h
            cases h
        | some outcome =>
            simp only [houtcome, bind_eq_ok] at h
            obtain ⟨envelope, -, h⟩ := h
            split_ifs at h
            · exact hpark h
            · unfold followEdge at h
              split at h
              · cases h
              · obtain ⟨target, -, h⟩ := bind_eq_ok.mp h
                dsimp only at h
                split at h
                · cases h
                · obtain ⟨_, hbind, -⟩ := bind_eq_ok.mp h
                  exact (bindRun_eq_ok.mp hbind).2.2.2.2
      · cases hparked : parkedAs result.classification with
        | none =>
            rw [hparked] at h
            cases h
        | some statuses =>
            rw [hparked] at h
            exact hpark h

lemma parkRun_returns {manifest : Manifest} {runStatus : RunStatus} {status : Status}
    {outcome : Option Text} {reason : Text} (hbind : bindRun result outcome = .ok ())
    (hfresh : FreshOperation others s stamp.operationId) (hreason : Encodable reason)
    (hlease : s.task.leaseToken.isSome) (hstatus : status ≠ .running) :
    ∃ s', s.parkRun others stamp run stage result manifest runStatus status outcome reason
      = .ok s' ∧ s'.task.status ≠ .running := by
  refine ⟨_, bind_eq_ok.mpr ⟨(), hbind, bind_eq_ok.mpr ⟨_, insertTransition_eq_ok.mpr
    ⟨hfresh, hreason, rfl⟩, bind_eq_ok.mpr ⟨(), require_eq_ok.mpr hlease, rfl⟩⟩⟩, ?_⟩
  exact hstatus

lemma followEdge_returns {manifest : Manifest} {outcome : Text} {present : Bool}
    (hcounts : s.CountsLog) (hstage : s.profile.stage stage.name = .ok stage)
    (hmem : outcome ∈ dictKeys stage.outcomes) (hbind : bindRun result (some outcome) = .ok ())
    (hfresh : FreshOperation others s stamp.operationId) (hlease : s.task.leaseToken.isSome) :
    ∃ s', s.followEdge others stamp run stage result manifest outcome present = .ok s' ∧
      s'.task.status ≠ .running := by
  have hprofile := s.frozen.wellFormed
  have hstageMem := mem_of_dictGet (Profile.stage_eq_ok.mp hstage)
  obtain ⟨targetName, hleads⟩ := Option.isSome_iff_exists.mp (dictGet_isSome.mpr hmem)
  obtain ⟨target, htarget⟩ := hprofile.targets _ _ hstageMem _ _ (mem_of_dictGet hleads)
  -- the counter of the edge was seeded at submission
  have hedge : Profile.edgeId stage.name outcome ∈ s.profile.edges := by
    refine List.mem_flatMap.mpr ⟨_, hstageMem, List.mem_map.mpr ⟨(outcome, targetName), ?_, rfl⟩⟩
    exact mem_of_dictGet hleads
  obtain ⟨cap, hcap⟩ := Option.isSome_iff_exists.mp
    (dictGet_isSome.mpr ((hprofile.caps_cover _).mpr hedge))
  have hseeded := hcounts.seeded (Profile.edgeId stage.name outcome)
  rw [show dictGet _ s.profile.edgeCaps = some cap from hcap] at hseeded
  obtain ⟨row, hrow, -⟩ := Option.map_eq_some_iff.mp hseeded
  unfold followEdge
  simp only [hleads, hrow]
  rw [show s.profile.stage targetName = .ok target from Profile.stage_eq_ok.mpr htarget]
  generalize hhit : (decide (row.cap ≤ row.count) && !(present && s.profile.gateReachable)) = hit
  have hreason : Encodable ((edgeStatus hit outcome target).2.getD "stage_completed") := by
    unfold edgeStatus
    split_ifs <;> exact encodable_ofString _
  have hfresh' : FreshOperation others
      ((if hit then s else s.bumpEdge (Profile.edgeId stage.name outcome)).updateRun run.runToken
        (settledRun result manifest .committed (some outcome) stamp.now)) stamp.operationId := by
    cases hit <;> exact hfresh
  refine ⟨_, bind_eq_ok.mpr ⟨target, rfl, bind_eq_ok.mpr ⟨(), hbind, bind_eq_ok.mpr ⟨_,
    insertTransition_eq_ok.mpr ⟨hfresh', hreason, rfl⟩,
    bind_eq_ok.mpr ⟨(), require_eq_ok.mpr hlease, rfl⟩⟩⟩⟩, ?_⟩
  exact edgeStatus_ne_running

/-- Where a result that may be committed goes. -/
def Routed (rt : Runtime) (s : TaskStore) (stage : Stage) (result : RunResult) : Prop :=
  (result.classification = .success ∧ ∃ outcome envelope, result.outcome = some outcome ∧
      s.envelopeForTask rt = .ok envelope ∧
      (outcome = holdOutcome ∧ envelope.isSome ∨ outcome ∈ dictKeys stage.outcomes)) ∨
    result.classification ∈ [Classification.blocked, .paused, .waitingUser]

/-- A commit of the running run returns when everything it binds can be stored. -/
lemma commitRun_returns {token : Text} (hcounts : s.CountsLog)
    (hable : Committable rt s token result run stage) (hlease : s.task.leaseToken.isSome)
    (hroute : s.Routed rt stage result) (hbind : bindRun result result.outcome = .ok ())
    (hreason : Encodable result.reason) (hfresh : FreshOperation others s stamp.operationId) :
    ∃ s', s.commitRun rt others stamp token result = .ok s' ∧ s'.task.status ≠ .running := by
  have hstage : s.profile.stage stage.name = .ok stage := by
    rw [stage_name hable.current]
    exact hable.current
  have hrunning : require (run.status = .running && s.task.status = .running)
      (.controllerError "run/task state conflict") = .ok () := by
    simp [hable.run_running, hable.running]
  have hleased : require (run.leaseToken = s.task.leaseToken)
      (.controllerError "run/task lease conflict") = .ok () := by
    simp [hable.lease]
  unfold commitRun
  simp only [hable.find, hrunning, hleased, hable.current, hable.sealed_, returned_bind]
  rcases hroute with ⟨hsuccess, outcome, envelope, houtcome, henvelope, hwhere⟩ | hclass
  · rw [if_pos hsuccess]
    rw [houtcome] at hbind
    simp only [houtcome, henvelope]
    by_cases hhold : outcome = holdOutcome ∧ envelope.isSome
    · obtain ⟨s', hs', hstatus⟩ := @parkRun_returns others s stamp run stage _
        (manifestOf result) .committed .waitingUser _ holdStopReason hbind hfresh (encodable_ofString _)
        hlease (by simp)
      exact ⟨s', bind_eq_ok.mpr ⟨envelope, rfl, by rwa [if_pos hhold]⟩, hstatus⟩
    · obtain ⟨s', hs', hstatus⟩ := @followEdge_returns _ _ _ run _ _
        (manifestOf result) _ envelope.isSome hcounts hstage (hwhere.resolve_left hhold) hbind hfresh hlease
      exact ⟨s', bind_eq_ok.mpr ⟨envelope, rfl, by rwa [if_neg hhold]⟩, hstatus⟩
  · have hparks : ∃ runStatus status, parkedAs result.classification = some (runStatus, status) ∧
        result.classification ≠ .success ∧ status ≠ .running := by
      cases hc : result.classification <;> simp [hc, parkedAs] at hclass ⊢
    obtain ⟨runStatus, status, hparked, hne, hstatus⟩ := hparks
    rw [if_neg hne]
    simp only [hparked]
    exact parkRun_returns hbind hfresh hreason hlease hstatus

/-! ## What a running task brings along -/

/-- A running task was claimed, so its input was read strictly. -/
lemma Change.reads {op : Operation} (h : Change rt others s op s')
    (hinv : s.task.status = .running → ∃ e, s.envelopeForTask rt = .ok e)
    (hrunning : s'.task.status = .running) : ∃ e, s'.envelopeForTask rt = .ok e := by
  have hinput : s'.envelopeForTask rt = s.envelopeForTask rt := by
    unfold envelopeForTask
    rw [h.frozen.2]
  rw [hinput]
  cases h with
  | stopCap => cases hrunning
  | claim stamp model stage envelope hclaim => exact ⟨envelope, hclaim.reads⟩
  | park stamp token result run stage runStatus status outcome reason hcommit hcase =>
      exact absurd hrunning hcase.not_running.2
  | follow => exact absurd hrunning edgeStatus_ne_running
  | resume => cases hrunning
  | preflight stamp stop =>
      have : (if stop.paused then Status.paused else .blocked) = .running := hrunning
      split_ifs at this
  | preflightIdle => exact hinv hrunning
  | orphan => cases hrunning
  | alter => exact hinv hrunning

lemma Reachable.reads {condition : Condition} (h : s.Reachable rt condition) :
    s.task.status = .running → ∃ e, s.envelopeForTask rt = .ok e :=
  h.preserved
    (fun s hs hrunning => by
      obtain ⟨others, sub, hsub⟩ := hs
      obtain ⟨-, rfl⟩ := submitTask_eq_ok hsub
      cases hrunning)
    fun hinv _ hchange => hchange.reads hinv

/-- `uuid4` draws plain run tokens. -/
def plainTokens : Condition := fun op _ =>
  match op with
  | .claim stamp _ | .preflightStop stamp _ => Encodable stamp.runToken
  | _ => True

lemma Reachable.tokens_encodable (h : s.Reachable rt plainTokens) :
    ∀ token ∈ s.runTokens, Encodable token := by
  refine h.preserved (I := fun s => ∀ token ∈ s.runTokens, Encodable token) ?_ ?_
  · intro s hs
    obtain ⟨others, sub, hsub⟩ := hs
    obtain ⟨-, rfl⟩ := submitTask_eq_ok hsub
    simp [runTokens, newTask]
  · intro others op s s' hinv hop hchange
    have hupdated : ∀ {token : Text} {f : StageRun → StageRun}, (∀ r, (f r).runToken = r.runToken) →
        ∀ t ∈ (s.updateRun token f).runTokens, Encodable t := fun hf t ht =>
      hinv t (runTokens_updateRun hf ▸ ht)
    cases hchange with
    | claim stamp model stage envelope hclaim hcap hinsert =>
        intro token htoken
        rw [runTokens, claimedBy, List.map_append, List.mem_append] at htoken
        rcases htoken with h | h
        · exact hinv token h
        · rw [List.mem_singleton.mp h]
          exact hop
    | preflight stamp stop =>
        intro token htoken
        rw [runTokens, preflighted, logged_stageRuns, List.map_append, List.mem_append] at htoken
        rcases htoken with h | h
        · exact hinv token h
        · rw [List.mem_singleton.mp h]
          exact hop
    | park => exact hupdated fun _ => rfl
    | follow stamp token result run stage envelope outcome target row edgeCapHit =>
        cases edgeCapHit <;> exact hupdated fun _ => rfl
    | resume operationId rerunStage granted => cases granted <;> exact hinv
    | orphan stamp =>
        unfold orphaned
        cases s.stageRuns.find? fun r => r.status = .running with
        | none => exact hinv
        | some r => exact hupdated fun _ => rfl
    | _ => exact hinv

lemma readSealedRun_error {e : Exc} (htoken : Encodable run.runToken)
    (h : s.readSealedRun run = .error e) : Encodable e.message := by
  unfold readSealedRun at h
  cases hmanifest : run.manifest with
  | none =>
      rw [hmanifest] at h
      cases h
      simp only [Exc.message, encodable_append]
      exact ⟨⟨encodable_ofString _, htoken⟩, encodable_ofString _⟩
  | some m =>
      simp only [hmanifest] at h
      rcases bind_eq_error.mp h with h | ⟨_, -, h⟩
      · obtain ⟨-, rfl⟩ := require_eq_error.mp h
        exact encodable_ofString _
      · cases hvalid : m.validBoundary with
        | error e' =>
            rw [hvalid] at h
            cases h
            have hmessage : Encodable e'.message := by
              unfold Manifest.validBoundary validateSealedBoundary at hvalid
              split_ifs at hvalid <;> obtain ⟨-, rfl⟩ := require_eq_error.mp hvalid <;>
                exact encodable_ofString _
            simp only [Exc.message, encodable_append]
            exact ⟨⟨⟨encodable_ofString _, htoken⟩, encodable_ofString _⟩, hmessage⟩
        | ok u =>
            rw [hvalid] at h
            cases herror : m.error with
            | none =>
                rw [herror] at h
                cases h
            | some e' =>
                rw [herror] at h
                cases h
                simp only [Exc.message, encodable_append]
                refine ⟨⟨⟨⟨encodable_ofString _, htoken⟩, encodable_ofString _⟩, ?_⟩,
                  encodable_ofString _⟩
                cases e' <;> exact encodable_ofString _

lemma sealedConvergenceRecords_error {runs : List (ℕ × StageRun)}
    (htokens : ∀ r ∈ runs, Encodable r.2.runToken) :
    ∀ {records : List (ℕ × ConvergenceRecord)} {e : Text},
      s.sealedConvergenceRecords rt runs = .ok (records, some e) → Encodable e := by
  induction runs with
  | nil =>
      intro records e h
      cases h
  | cons r runs ih =>
      obtain ⟨index, run⟩ := r
      intro records e h
      have htoken : Encodable run.runToken := htokens _ (List.mem_cons_self ..)
      have hrest : ∀ {records : List (ℕ × ConvergenceRecord)} {e : Text},
          s.sealedConvergenceRecords rt runs = .ok (records, some e) → Encodable e :=
        ih fun r hr => htokens r (List.mem_cons_of_mem _ hr)
      unfold sealedConvergenceRecords at h
      cases hread : s.readSealedRun run with
      | error e' =>
          simp only [hread] at h
          split_ifs at h
          cases h
          exact encodable_append.mpr ⟨encodable_ofString _, readSealedRun_error htoken hread⟩
      | ok sealed_ =>
          simp only [hread] at h
          cases hextract : extractConvergence rt sealed_.finalResponse none with
          | ok record =>
              rw [hextract] at h
              obtain ⟨⟨records', error⟩, hrecords, h⟩ := bind_eq_ok.mp h
              cases h
              exact hrest hrecords
          | error e' =>
              rw [hextract] at h
              cases e' with
              | convergenceError m =>
                  dsimp only at h
                  split_ifs at h
                  · exact hrest h
                  · cases h
                    exact encodable_append.mpr ⟨encodable_ofString _,
                      extractConvergence_message hextract⟩
              | _ => cases h

/-- Only an envelope task is scored. -/
lemma contextFor_present {envelope : Option Envelope} {name : Text} {c : ConvergenceContext}
    (h : s.contextFor rt envelope name = .ok (some c)) : envelope.isSome = true := by
  by_contra hpresent
  unfold contextFor at h
  rw [if_neg hpresent] at h
  cases h

/-- The context a run is scored against has an error that can be stored. -/
lemma contextFor_error {envelope : Option Envelope} {name : Text} {c : ConvergenceContext}
    {e : Text} (htokens : ∀ token ∈ s.runTokens, Encodable token)
    (hcontext : s.contextFor rt envelope name = .ok (some c)) (herror : c.error = some e) :
    envelope.isSome = true ∧ Encodable e := by
  have hpresent := contextFor_present hcontext
  unfold contextFor at hcontext
  rw [if_pos hpresent] at hcontext
  refine ⟨hpresent, ?_⟩
  unfold convergenceContext at hcontext
  split_ifs at hcontext
  · cases hcontext
  obtain ⟨⟨records, error⟩, hrecords, hcontext⟩ := bind_eq_ok.mp hcontext
  cases hcontext
  have hsame : error = some e := by
    unfold ConvergenceContext.ofRecords at herror
    split at herror
    · cases herror
    · exact herror
  subst hsame
  refine sealedConvergenceRecords_error (fun r hr => ?_) hrecords
  obtain ⟨entry, hentry, -, hrun⟩ := mem_runsOfArity hr
  obtain ⟨t, -, ht⟩ := List.mem_filterMap.mp hentry
  cases hfind : t.runToken.bind s.findRun with
  | none =>
      simp only [hfind] at ht
      cases ht
  | some run =>
      simp only [hfind] at ht
      split_ifs at ht
      obtain rfl := Option.some.inj ht
      obtain ⟨token, -, hfind⟩ := Option.bind_eq_some_iff.mp hfind
      refine htokens _ (List.mem_map.mpr ⟨r.2, ?_, rfl⟩)
      rw [← hrun]
      exact (mem_runTokens_of_findRun hfind).1

end TaskStore

/-! ## The tail -/

/-- The provider of a running task has returned: the input was read and the context computed when
only the artifacts `before` had been altered, and the commit draws an unused identity. -/
structure TaskStore.AtTail (rt : Runtime) (others : Taken) (s : TaskStore) (stamp : Stamp)
    (run : StageRun) (stage : Stage) (envelope : Option Envelope)
    (context : Option ConvergenceContext) : Prop where
  running : s.task.status = .running
  mem : run ∈ s.stageRuns
  run_running : run.status = .running
  current : s.profile.stage s.task.currentStage = .ok stage
  reads : extractEnvelope rt s.inputText = .ok envelope
  context_read : ∃ before : List Text,
    ({ s with damaged := before } : TaskStore).contextFor rt envelope stage.name = .ok context
  fresh : TaskStore.FreshOperation others s stamp.operationId

section
variable {rt : Runtime} {others : Taken} {s s' : TaskStore} {stamp : Stamp} {run : StageRun}
  {stage : Stage} {envelope : Option Envelope} {context : Option ConvergenceContext}
  {raw : RunResult}

/-- A tail that returned has met no sink that refuses. -/
lemma harmless_of_finishRun (hraw : raw.FromRunner rt)
    (h : s.finishRun rt others stamp run.runToken stage envelope context raw = .ok s') :
    raw.Harmless rt (allowedOutcomes (dictKeys stage.outcomes) envelope.isSome) context := by
  obtain ⟨result, hsettle, hcommit⟩ := bind_eq_ok.mp h
  obtain ⟨classified, scored, hsettles, rfl⟩ := settleResult_eq_ok.mp hsettle
  obtain ⟨hfits, hseal⟩ := TaskStore.commitRun_binds hcommit
  obtain ⟨htelemetry, hpasses⟩ := hsettles.passes
  refine ⟨⟨fun outcome c hends hc herror => ?_,
    fun hreviewer t ht => hsettles.report hreviewer ht, ?_⟩, fun usage husage => ?_⟩
  · have hsuccess := (classified_success hsettles.classifies).mpr ⟨outcome, hends⟩
    rw [← hsettles.text_eq.1]
    exact recordDecodes_of_scoreWith (hc ▸ hsettles.scores) hsuccess herror
  · have hdumps := (dumps_manifestPayload.mp (sealRunManifest_ok.mp hseal).2.2).2
    have hreceipt : (reviewerOverride scored).receiptMember = raw.receiptMember := by
      rw [hpasses]
      rfl
    rwa [hreceipt] at hdumps
  · obtain ⟨usage', husage', htelemetry'⟩ := hraw.telemetry
    rw [husage] at husage'
    rw [htelemetry] at htelemetry'
    rw [Except.ok.inj husage', ← Except.ok.inj htelemetry']
    exact hfits

/-- What settling a harmless result gives: texts that can be stored, and a way to go. -/
lemma settles_of_harmless (hraw : raw.FromRunner rt)
    (hcontext : ∀ c, context = some c → envelope.isSome = true ∧
      ∀ e, c.error = some e → Encodable e)
    (h : raw.Harmless rt (allowedOutcomes (dictKeys stage.outcomes) envelope.isSome) context)
    (hread : s.envelopeForTask rt = .ok envelope) :
    ∃ classified scored, Settles rt (allowedOutcomes (dictKeys stage.outcomes) envelope.isSome)
        context raw classified scored ∧
      Encodable (reviewerOverride scored).reason ∧
      (∀ o, scored.outcome = some o → Encodable o) ∧
      s.Routed rt stage (reviewerOverride scored) := by
  obtain ⟨usage, husage, htelemetry⟩ := hraw.telemetry
  obtain ⟨classified, hclassified⟩ : ∃ classified, classifyResult rt
      (allowedOutcomes (dictKeys stage.outcomes) envelope.isSome) raw = .ok classified := by
    unfold classifyResult
    simp only [htelemetry, bind, Except.bind]
    cases raw.containmentStop <;> exact ⟨_, rfl⟩
  obtain ⟨-, hkept, hplain, hstopped⟩ := classifyResult_spec hclassified
  have htexts : Encodable classified.reason ∧
      (∀ o, classified.outcome = some o → Encodable o) ∧
      classified.classification ∈ [Classification.success, .blocked, .paused] := by
    cases hstop : raw.containmentStop with
    | some stop =>
        have hverdict := hstopped stop hstop
        simp only [Prod.mk.injEq] at hverdict
        rw [hverdict.1, hverdict.2.1, hverdict.2.2]
        exact ⟨(hraw.contained stop hstop).1, by simp, by simp⟩
    | none =>
        have htext : Encodable raw.authoritativeText := by
          cases hresponse : raw.finalResponse with
          | none => simpa [RunResult.authoritativeText, hresponse] using hraw.decoded.output hstop
          | some t =>
              simp only [RunResult.authoritativeText, hresponse, Option.getD_some]
              cases hreviewer : raw.isReviewer with
              | false => exact hraw.decoded.finalResponse hreviewer t hresponse
              | true => exact h.report hreviewer t hresponse
        have hverdict := @verdictOf_encodable rt
          (allowedOutcomes (dictKeys stage.outcomes) envelope.isSome) _ htext
        rw [← hplain hstop] at hverdict
        exact ⟨hverdict.2.1, hverdict.1, hverdict.2.2⟩
  obtain ⟨hreason, houtcome, hclass⟩ := htexts
  have hauthor : classified.authoritativeText = raw.authoritativeText := by
    rw [hkept]
    rfl
  obtain ⟨scored, hscored, hscoredReason, hscoredOutcome⟩ := scoreWith_returns
    (fun c hc e he => (hcontext c hc).2 e he) hreason houtcome (by
      intro hsuccess c hc herror
      obtain ⟨outcome, hends⟩ := (classified_success hclassified).mp hsuccess
      rw [hauthor]
      exact h.record outcome c hends hc herror)
  have hkeptScored : scored.finalResponse = raw.finalResponse ∧
      scored.executionReceipt = raw.executionReceipt := by
    have hclassifiedKeeps : classified.finalResponse = raw.finalResponse ∧
        classified.executionReceipt = raw.executionReceipt := by
      rw [hkept]
      exact ⟨rfl, rfl⟩
    rcases scoreWith_keeps hscored with rfl | ⟨reason, rfl, -⟩ <;> exact hclassifiedKeeps
  have hreported : writeReport (reviewerOverride scored) = .ok () := by
    have hfinal : (reviewerOverride scored).finalResponse = raw.finalResponse := by
      rw [← hkeptScored.1]
      unfold reviewerOverride
      split_ifs <;> rfl
    have hrole : (reviewerOverride scored).isReviewer = raw.isReviewer := by
      unfold RunResult.isReviewer
      rw [(reviewerOverride_keeps scored).2.1, hkeptScored.2]
    refine require_eq_ok.mpr ?_
    rw [hrole, hfinal]
    cases hreviewer : raw.isReviewer with
    | false => rfl
    | true =>
        cases hresponse : raw.finalResponse with
        | none => rfl
        | some text => simpa using h.report hreviewer text hresponse
  refine ⟨classified, scored, ⟨hclassified, hscored, hreported⟩, ?_, hscoredOutcome, ?_⟩
  · unfold reviewerOverride
    split_ifs
    · exact encodable_append.mpr ⟨encodable_ofString _, hscoredReason⟩
    · exact hscoredReason
  · -- a routed review waits for the user, everything else goes where it was scored
    by_cases hroute : scored.isReviewer && scored.classification = .success &&
        scored.outcome ≠ some ("ready" : Text)
    · right
      unfold reviewerOverride
      rw [if_pos hroute]
      simp
    · unfold reviewerOverride
      rw [if_neg hroute]
      rcases scoreWith_holds hscored with rfl | ⟨c, reason, hc, rfl, -⟩
      · by_cases hsuccess : scored.classification = .success
        · left
          obtain ⟨o, hends⟩ := (classified_success hclassified).mp hsuccess
          have hverdict := hplain hends.1
          have hverdictOf : verdictOf rt (allowedOutcomes (dictKeys stage.outcomes) envelope.isSome) raw
              = (some o, Classification.success, ("success" : Text)) :=
            verdictOf_success.mpr ⟨hends.2.1, hends.2.2.1, hends.2.2.2.1, hends.2.2.2.2.1, rfl, o,
              rfl, hends.2.2.2.2.2⟩
          rw [hverdictOf] at hverdict
          refine ⟨hsuccess, o, envelope, congrArg Prod.fst hverdict, hread, ?_⟩
          rcases mem_allowedOutcomes hends.2.2.2.2.2.2 with hmem | ⟨hpresent, rfl⟩
          · exact .inr hmem
          · exact .inl ⟨rfl, hpresent⟩
        · right
          simp only [List.mem_cons, List.not_mem_nil, or_false] at hclass ⊢
          tauto
      · left
        exact ⟨rfl, holdOutcome, envelope, rfl, hread, .inl ⟨rfl, (hcontext c hc).1⟩⟩

/-- The tail of a running task returns, and leaves `running`, exactly for the harmless results. -/
theorem finishRun_returns_iff (hreach : s.Reachable rt TaskStore.plainTokens)
    (htail : s.AtTail rt others stamp run stage envelope context) (hraw : raw.FromRunner rt) :
    (∃ s', s.finishRun rt others stamp run.runToken stage envelope context raw = .ok s' ∧
        s'.task.status ≠ .running) ↔
      raw.Harmless rt (allowedOutcomes (dictKeys stage.outcomes) envelope.isSome) context := by
  constructor
  · rintro ⟨s', h, -⟩
    exact harmless_of_finishRun hraw h
  · intro h
    have hnamed := hreach.rowsNamed
    have hheld := hreach.leaseHeld
    have htokens := hreach.tokens_encodable
    obtain ⟨before, hcontext⟩ := htail.context_read
    -- the strict reader saw what the lenient one sees
    have hread : s.envelopeForTask rt = .ok envelope := by
      obtain ⟨e, he⟩ := hreach.reads htail.running
      have := TaskStore.extractEnvelope_inputText he
      rw [htail.reads] at this
      rw [he, Except.ok.inj this]
    obtain ⟨classified, scored, hsettles, hreason, houtcome, hroute⟩ := @settles_of_harmless
      _ s stage _ _ _ hraw (fun c hc => by
        subst hc
        exact ⟨TaskStore.contextFor_present hcontext,
          fun e he => (TaskStore.contextFor_error (s := { s with damaged := before })
            htokens hcontext he).2⟩) h hread
    obtain ⟨active, hactive, hlease, hleased⟩ := hheld.active htail.running
    have hfind : s.findRun run.runToken = some run := hnamed.findRun htail.mem
    obtain rfl := TaskStore.active_of_findRun hactive hfind htail.run_running
    obtain ⟨htelemetry, hpasses⟩ := hsettles.passes
    have hcurrent : s.profile.stage run.stage = .ok stage := by
      rw [hnamed.staged run htail.mem htail.run_running]
      exact htail.current
    have hseal : sealRunManifest rt (reviewerOverride scored) =
        .ok (manifestOf (reviewerOverride scored)) := by
      refine sealRunManifest_ok.mpr ⟨rfl, ?_, dumps_manifestPayload.mpr ⟨⟨hreason, ?_, ?_⟩, ?_⟩⟩
      · rw [hpasses]
        exact hraw.boundary
      · rw [hpasses]
        exact houtcome
      · intro c hc
        rw [hpasses] at hc
        obtain ⟨stop, hstop, hc⟩ := Option.bind_eq_some_iff.mp hc
        unfold candidateOf at hc
        rw [if_neg (hraw.contained stop hstop).2] at hc
        cases hc
      · rw [hpasses]
        exact h.receipt
    obtain ⟨usage, husage, htelemetry'⟩ := hraw.telemetry
    have hfits : (reviewerOverride scored).usage.Fits := by
      rw [htelemetry] at htelemetry'
      rw [Except.ok.inj htelemetry']
      exact h.counts usage husage
    have hbind : TaskStore.bindRun (reviewerOverride scored) (reviewerOverride scored).outcome =
        .ok () := by
      refine TaskStore.bindRun_eq_ok.mpr ⟨?_, ?_, ?_, ?_, hfits⟩
      · rw [hpasses]
        exact hraw.exitCode_fits
      · rw [hpasses]
        exact houtcome
      · rw [hpasses]
        exact hraw.duration_fits
      · rw [hpasses]
        exact hraw.model_encodable
    obtain ⟨s', hs', hstatus⟩ := @TaskStore.commitRun_returns _ _ _ stamp _ _ _ _ hreach.countsLog
      ⟨hfind, htail.run_running, htail.running, hlease.symm, hcurrent, hseal⟩ hleased hroute hbind
      hreason htail.fresh
    exact ⟨s', bind_eq_ok.mpr ⟨_, settleResult_eq_ok.mpr ⟨classified, scored, hsettles, rfl⟩, hs'⟩,
      hstatus⟩

end

/-- **Totality of the tail**: for every task of a reachable database and every result of a runner,
the tail returns and leaves `running` if and only if the result is harmless. -/
theorem tail_returns_iff (rt : Runtime) (db : Db) (hreach : Db.Reachable rt TaskStore.plainTokens db)
    (id : Text) (s : TaskStore) (hs : dictGet id db = some s) (stamp : Stamp) (run : StageRun)
    (stage : Stage) (envelope : Option Envelope) (context : Option ConvergenceContext)
    (htail : s.AtTail rt (db.takenBeside id) stamp run stage envelope context) (raw : RunResult)
    (hraw : Returned rt raw) :
    (∃ s', s.finishRun rt (db.takenBeside id) stamp run.runToken stage envelope context raw
        = .ok s' ∧ s'.task.status ≠ .running) ↔
      raw.Harmless rt (allowedOutcomes (dictKeys stage.outcomes) envelope.isSome) context :=
  finishRun_returns_iff (hreach.task hs) htail hraw.fromRunner

/-! ## A count no column holds -/

lemma atTail_claimedDraft : claimedDraft.AtTail .standard
    (Db.takenBeside [("task", claimedDraft)] "task") (sampleStamp 2) draftRun draftStage none
    none where
  running := rfl
  mem := List.mem_singleton.mpr rfl
  run_running := rfl
  current := rfl
  reads := rfl
  context_read := ⟨[], rfl⟩
  fresh := by
    rw [Db.takenBeside_single]
    exact ⟨List.not_mem_nil, by decide⟩

lemma reachable_plainDraft :
    Db.Reachable .standard TaskStore.plainTokens [("task", claimedDraft)] :=
  reachable_claimedDraft
    (show Encodable (sampleStamp 1).runToken from
      encodable_append.mpr ⟨encodable_ofString _, encodable_decimal _⟩)

/-- A display stream that ends in the outcome, after a token count of `2^63`. -/
def oversizedStream : Text :=
  "\x7b\"total\":9223372036854775808\x7d\nORCHESTRATOR_OUTCOME: drafted"

def oversizedUsage : Usage := ⟨none, none, some (2 ^ 63), none⟩

lemma extractUsage_oversized : extractUsage .standard oversizedStream = .ok oversizedUsage := by
  decide +kernel

lemma returned_oversized : Returned .standard (printed oversizedStream oversizedUsage) :=
  returned_printed (encodable_ofString _) extractUsage_oversized

theorem tail_returns_iff_oversized :
    (∃ s', claimedDraft.finishRun .standard (Db.takenBeside [("task", claimedDraft)] "task")
        (sampleStamp 2) draftRun.runToken draftStage none none
        (printed oversizedStream oversizedUsage) = .ok s' ∧ s'.task.status ≠ .running) ↔
      (printed oversizedStream oversizedUsage).Harmless .standard
        (allowedOutcomes (dictKeys draftStage.outcomes) false) none :=
  tail_returns_iff .standard [("task", claimedDraft)]
    reachable_plainDraft "task" claimedDraft rfl (sampleStamp 2) draftRun
    draftStage none none atTail_claimedDraft _ returned_oversized

theorem not_tail_returns_oversized :
    ¬ ∀ db, Db.Reachable .standard TaskStore.plainTokens db → ∀ id s, dictGet id db = some s →
      ∀ stamp run stage envelope context,
        s.AtTail .standard (db.takenBeside id) stamp run stage envelope context →
          ∀ raw, Returned .standard raw →
            ∃ s', s.finishRun .standard (db.takenBeside id) stamp run.runToken stage envelope
              context raw = .ok s' ∧ s'.task.status ≠ .running := by
  intro hall
  obtain ⟨s', hs', -⟩ := hall _ reachable_plainDraft "task" claimedDraft
    rfl (sampleStamp 2) draftRun draftStage none none atTail_claimedDraft _ returned_oversized
  have hharmless := harmless_of_finishRun returned_oversized.fromRunner hs'
  have hfits := (hharmless.counts oversizedUsage extractUsage_oversized).2.2
  exact absurd hfits (by decide)

end AgentOrch
