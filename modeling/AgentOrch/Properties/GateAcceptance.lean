import AgentOrch.Properties.GateHandover

/-!
# What an allowed gate leaves to check

Once `orch gate-allow` has written its three files, the checks of `_validate_gate` that are about the
gate and its decision all pass.  What is left is about the rest of the records, the input of the
review, the binding of the request and the journal.
-/

namespace AgentOrch

open Py Json

namespace GateFiles

open Yaml

/-! ## Records that stay -/

section
variable {home id : Text} {d : Decision} {task routing gate result : List (Text × Value)}

lemma stays_str (t : Text) : Stays (.str t) := rfl

lemma stays_optText (t : Option Text) : Stays (Trajectory.optText t) := by
  cases t <;> rfl

lemma stays_dictAt {key : Text} {items : List (Text × Value)} (h : settledPairs items = items)
    (key' : Text) : Stays (getValue key' ((dictAt key items).getD [])) := by
  have hvalue := stays_getValue h key
  unfold dictAt
  cases hget : getValue key items with
  | obj found =>
      rw [hget] at hvalue
      exact stays_getValue (stays_obj_iff.mp hvalue) key'
  | _ => rfl

section
variable (hrouting : settledPairs routing = routing) (hgate : settledPairs gate = gate)
  (hresult : settledPairs result = result)
include hrouting hgate hresult

lemma settledPairs_summary : settledPairs (d.summary home id routing gate result) =
    d.summary home id routing gate result := by
  refine settledPairs_eq_self_iff.mpr ?_
  simp only [Decision.summary, List.forall_mem_cons, List.not_mem_nil, false_imp_iff,
    implies_true, and_true]
  exact ⟨rfl, rfl, rfl, stays_optText _, rfl, rfl, rfl, stays_getValue hgate _,
    stays_getValue hresult _, stays_dictAt hrouting _, stays_getValue hresult _,
    stays_getValue hresult _, stays_getValue hresult _, stays_getValue hresult _,
    stays_getValue hresult _, stays_getValue hrouting _, stays_dictAt hrouting _,
    stays_getValue hrouting _, stays_getValue hrouting _, stays_getValue hrouting _⟩

omit hrouting hresult in
lemma settledPairs_decidedGate : settledPairs (d.decidedGate home id gate) =
    d.decidedGate home id gate := by
  have hfold : ∀ (entries items : List (Text × Value)), (∀ p ∈ entries, Stays p.2) →
      settledPairs items = items →
      settledPairs (entries.foldl (fun items p => dictSet p.1 p.2 items) items) =
        entries.foldl (fun items p => dictSet p.1 p.2 items) items := by
    intro entries
    induction entries with
    | nil => exact fun _ _ h => h
    | cons p entries ih =>
        intro items hentries h
        exact ih _ (fun q hq => hentries q (List.mem_cons_of_mem p hq))
          (settledPairs_dictSet h (hentries p List.mem_cons_self))
  refine hfold _ _ ?_ hgate
  simp only [Decision.updates, List.forall_mem_cons, List.not_mem_nil, false_imp_iff,
    implies_true, and_true]
  exact ⟨rfl, rfl, rfl, stays_optText _, rfl, rfl⟩

lemma settledPairs_decidedRouting :
    settledPairs (d.decidedRouting home id routing gate result) =
      d.decidedRouting home id routing gate result :=
  settledPairs_dictSet (settledPairs_dictSet hrouting
    (stays_obj_iff.mpr (settledPairs_decidedGate hgate)))
    (stays_obj_iff.mpr (settledPairs_summary hrouting hgate hresult))

lemma settledPairs_decidedTask (htask : settledPairs task = task) :
    settledPairs (d.decidedTask home id task routing gate result) =
      d.decidedTask home id task routing gate result :=
  settledPairs_dictSet (settledPairs_dictSet (settledPairs_dictSet htask (stays_str _))
    (stays_obj_iff.mpr (settledPairs_decidedGate hgate)))
    (stays_obj_iff.mpr (settledPairs_summary hrouting hgate hresult))

end

end

/-! ## What is left -/

section
variable (pf : Platform) (instant : Text → Option ℤ) (m : Kanban.Moment) (db : Kanban.Db)
  (binding : List (Text × Value)) (home id : Text) (d : Decision)
  (task routing gate result : List (Text × Value))

/-- The mapping has a canonical text. -/
def Renders (pf : Platform) (items : List (Text × Value)) : Prop :=
  ∃ bytes, Kanban.canonicalJson pf.toRuntime (.obj items) = .ok bytes

/-- What `_validate_gate` still depends on once the decision stands. -/
structure Remaining : Prop where
  taskId : getValue "task_id" task = .str id
  routingId : getValue "task_id" routing = .str id
  gateRenders : Renders pf (d.decidedGate home id gate)
  decisionRenders : Renders pf (d.summary home id routing gate result)
  results : ∃ first, getValue "execution_result" task = .obj first ∧
    getValue "execution_result" routing = .obj result ∧ Kanban.Agree pf first result
  execution : ∃ execution, getValue "execution" routing = .obj execution ∧
    ∀ p ∈ Kanban.provenance routing execution result, p.2.eqv p.2 = true
  review : ∃ text summary,
    m.disk.readText (tasksFile home (id ++ ("-gate-review-input.md" : Text))) = .ok text ∧
    Kanban.embeddedTaskSummary pf.toRuntime text = .ok (some summary) ∧
    contains (Kanban.renderCloseoutBinding pf.toRuntime binding) summary = true
  times : ∃ decided terminal sealed, Kanban.parseTime instant (.str d.decidedAt) = some decided ∧
    Kanban.parseTime instant (getValue "terminal_done_at" binding) = some terminal ∧
    Kanban.parseTime instant (getValue "last_seal_at" binding) = some sealed ∧
    terminal < decided ∧ sealed < decided
  named : getValue "closeout_task_id" binding = .str id
  night : getValue "night_task_id" binding ≠ .str id ∧
    getValue "night_request_id" binding ≠ .str id
  fresh : Kanban.closeoutAlreadyUsed pf.toRuntime id db.events = .ok false

end

/-! ## The checks, one by one -/

section
variable {pf : Platform} {instant : Text → Option ℤ} {m : Kanban.Moment} {db : Kanban.Db}
  {binding : List (Text × Value)} {home id reason : Text} {d : Decision}
  {task routing gate result : List (Text × Value)} {files : Files}

lemma eqv_str_iff {v : Value} {t : Text} : v.eqv (.str t) = true ↔ v = .str t := by
  constructor
  · exact Kanban.eq_str_of_eqv
  · rintro rfl
    simp [Value.eqv]

lemma dictOr_obj (reason : Text) (items : List (Text × Value)) :
    Kanban.dictOr reason (.obj items) = .ok items := rfl

lemma dictOr_iff {v : Value} {items : List (Text × Value)} :
    Kanban.dictOr reason v = .ok items ↔ v = .obj items := by
  constructor
  · exact Kanban.dictOr_eq_ok
  · rintro rfl
    rfl

lemma refuseUnlessSame_iff {a b : List (Text × Value)} {u : Unit} :
    Kanban.refuseUnlessSame pf a b reason = .ok u ↔ Kanban.Agree pf a b := by
  constructor
  · exact Kanban.refuseUnlessSame_eq_ok
  · rintro ⟨bytes, ha, hb⟩
    simp [Kanban.refuseUnlessSame, ha, hb, Kanban.stop_bind_eq_ok]

lemma agree_self_iff {a : List (Text × Value)} : Kanban.Agree pf a a ↔ Renders pf a := by
  simp [Kanban.Agree, Renders]

/-- A file that reads back is what `_read_yaml` finds. -/
lemma Shows.readYamlFile (hshows : Shows m home files) {path : Text} {v : Value}
    (h : readRecord pf.toRuntime m.yamlDepth files path = .ok v) :
    Kanban.readYamlFile pf m reason path = .ok v := by
  have hparsed : (do
      let text ← m.disk.readText path
      Yaml.readYaml pf.toRuntime m.yamlDepth text) = .ok v := by
    rw [hshows.readText]
    exact h
  unfold Kanban.readYamlFile
  dsimp only
  rw [hparsed]

/-- What the board has found when it looks at an allowed gate. -/
structure Decided (pf : Platform) (m : Kanban.Moment) (home id : Text) (d : Decision)
    (task routing gate result : List (Text × Value)) (files : Files) : Prop where
  shows : Shows m home files
  allow : d.decision = ("ALLOW" : Text)
  named : id ≠ [] ∧ 0x2F ∉ id
  pending : Pending task routing gate result
  decision : readRecord pf.toRuntime m.yamlDepth files (decisionPath home id) =
    .ok (.obj (d.summary home id routing gate result))
  task : readRecord pf.toRuntime m.yamlDepth files (taskPath home id) =
    .ok (.obj (d.decidedTask home id task routing gate result))
  routing : readRecord pf.toRuntime m.yamlDepth files (routingPath home id) =
    .ok (.obj (d.decidedRouting home id routing gate result))
  resolves : ∃ resolved, m.disk.resolve (decisionPath home id) = .ok resolved

lemma isFile_of_readText (hshows : Shows m home files) {path text : Text}
    (h : m.disk.readText path = .ok text) : m.disk.isFile path = true := by
  rw [hshows.readText] at h
  rw [hshows.isFile]
  cases hfile : files path with
  | none =>
      rw [readText, readBytes, hfile] at h
      cases h
  | some bytes => rfl

lemma isFile_of_readRecord (hshows : Shows m home files) {path : Text} {v : Value}
    (h : readRecord pf.toRuntime m.yamlDepth files path = .ok v) : m.disk.isFile path = true := by
  obtain ⟨text, htext, -⟩ := bind_eq_ok.mp h
  exact isFile_of_readText hshows ((hshows.readText path).trans htext)

section
variable (h : Decided pf m home id d task routing gate result files)
include h

/-- The decision passes its check, where the request names it and its hash. -/
lemma Decided.checkDecision {payload : List (Text × Value)} {bytes : Bytes}
    (hpath : getValue "gate_decision_path" payload = .str (decisionPath home id))
    (hfile : files (decisionPath home id) = some bytes)
    (hhash : getValue "gate_decision_hash" payload = .str (pf.sha256 bytes)) :
    Kanban.checkDecision pf m payload =
      .ok (decisionPath home id, id, d.summary home id routing gate result) := by
  obtain ⟨resolved, hresolved⟩ := h.resolves
  have hbytes : m.disk.readBytes (decisionPath home id) = .ok bytes := by
    rw [h.shows.readBytes, readBytes, hfile]
  have hhex : (pf.sha256 bytes).isEmpty = false := by
    have hlong := pf.sha256_hex bytes
    cases hdigest : pf.sha256 bytes with
    | nil =>
        rw [hdigest] at hlong
        cases hlong
    | cons c t => rfl
  have hpathNe : (decisionPath home id).isEmpty = false := by
    have hname : IsPart (id ++ ("-gate-decision.yaml" : Text)) :=
      isPart_name h.named.2 (by decide) (by decide)
    rw [decisionPath, tasksFile_eq hname]
    simp [h.named.1]
  have hsupplied : (Kanban.textThat (fun t => !t.isEmpty)
      (getValue "gate_decision_hash" payload)).isSome = true := by
    simp [hhash, Kanban.textThat, hhex]
  have hhome : m.tasksFile (id ++ ("-gate-decision.yaml" : Text)) = decisionPath home id :=
    h.shows.tasksFile _
  have htype : getValue "type" (d.summary home id routing gate result) =
      .str "stop_gate_decision" := rfl
  have hdecision : getValue "decision" (d.summary home id routing gate result) = .str "ALLOW" := by
    rw [← h.allow]
    rfl
  have htask : getValue "task_id" (d.summary home id routing gate result) = .str id := rfl
  have hread : Kanban.readYamlFile pf m "gate_decision_invalid" (decisionPath home id) =
      .ok (.obj (d.summary home id routing gate result)) := h.shows.readYamlFile h.decision
  unfold Kanban.checkDecision
  rw [hpath]
  dsimp only
  simp only [Kanban.stop_bind_eq_ok, Kanban.refuseUnless_eq_ok, Kanban.raising_eq_ok]
  refine ⟨(), by rw [hpathNe]; rfl, (), isFile_of_readRecord h.shows h.decision, (), hsupplied,
    bytes, hbytes, (), ?_, _, hread, _, rfl, (), ?_, ?_⟩
  · exact eqv_str_iff.mpr hhash
  · exact eqv_str_iff.mpr htype
  rw [htask]
  have hid : id.isEmpty = false := by simp [h.named.1]
  simp only [Kanban.stop_bind_eq_ok, Kanban.refuseUnless_eq_ok, Kanban.raising_eq_ok, hhome]
  exact ⟨(), by rw [hid]; rfl, resolved, hresolved, resolved, hresolved, (), decide_eq_true rfl, (),
    eqv_str_iff.mpr hdecision, rfl⟩

/-- The records pass theirs when they name the task. -/
lemma Decided.readRecords_iff {found : List (Text × Value) × List (Text × Value)} :
    Kanban.readRecords pf m id = .ok found ↔
      (getValue "task_id" task = .str id ∧ getValue "task_id" routing = .str id) ∧
        found = (d.decidedTask home id task routing gate result,
          d.decidedRouting home id routing gate result) := by
  have htask : m.tasksFile (id ++ (".yaml" : Text)) = taskPath home id := h.shows.tasksFile _
  have hrouting : m.tasksFile (id ++ ("-routing.yaml" : Text)) = routingPath home id :=
    h.shows.tasksFile _
  have hreadTask : Kanban.readYamlFile pf m "gate_binding_mismatch" (taskPath home id) =
      .ok (.obj (d.decidedTask home id task routing gate result)) := h.shows.readYamlFile h.task
  have hreadRouting : Kanban.readYamlFile pf m "gate_binding_mismatch" (routingPath home id) =
      .ok (.obj (d.decidedRouting home id routing gate result)) := h.shows.readYamlFile h.routing
  have htaskId : getValue "task_id" (d.decidedTask home id task routing gate result) =
      getValue "task_id" task := getValue_decidedTask.2.2.2 _ (by decide) (by decide) (by decide)
  have hroutingId : getValue "task_id" (d.decidedRouting home id routing gate result) =
      getValue "task_id" routing := getValue_decidedRouting.2.2 _ (by decide) (by decide)
  unfold Kanban.readRecords
  simp only [Kanban.stop_bind_eq_ok, Kanban.refuseUnless_eq_ok, htask, hrouting, hreadTask,
    hreadRouting, dictOr_obj, Except.ok.injEq, exists_eq_left', exists_const, Bool.and_eq_true,
    eqv_str_iff, htaskId, hroutingId]
  constructor
  · rintro ⟨-, hids, hfound⟩
    exact ⟨hids, (Except.ok.inj hfound).symm⟩
  · rintro ⟨hids, rfl⟩
    exact ⟨⟨isFile_of_readRecord h.shows h.task, isFile_of_readRecord h.shows h.routing⟩, hids, rfl⟩

/-- The gate passes when it has a canonical text. -/
lemma Decided.checkGate_iff {found : List (Text × Value)} :
    Kanban.checkGate pf (d.decidedTask home id task routing gate result)
      (d.decidedRouting home id routing gate result) = .ok found ↔
      Renders pf (d.decidedGate home id gate) ∧ found = d.decidedGate home id gate := by
  obtain ⟨hstatus, hdecision, hstage, htype⟩ := @getValue_decidedGate home id d gate
  have hfinal : d.finalStage = ("done" : Text) := by rw [Decision.finalStage, if_pos h.allow]
  have hstop : getValue "stop_gate" (d.decidedRouting home id routing gate result) = .bool true :=
    (getValue_decidedRouting.2.2 _ (by decide) (by decide)).trans h.pending.stopGate
  rw [h.pending.type] at htype
  rw [hfinal] at hstage
  rw [h.allow] at hdecision
  have htaskStage := (@getValue_decidedTask home id d task routing gate result).2.2.1
  rw [hfinal] at htaskStage
  unfold Kanban.checkGate
  simp only [Kanban.stop_bind_eq_ok, Kanban.refuseUnless_eq_ok, hstop, Kanban.isTrue,
    getValue_decidedTask.1, getValue_decidedRouting.1, dictOr_obj, Except.ok.injEq,
    exists_eq_left', exists_const, refuseUnlessSame_iff, agree_self_iff, Bool.and_eq_true,
    eqv_str_iff, htype, hstatus, hdecision, hstage, htaskStage, true_and, and_self]
  constructor
  · rintro ⟨hrenders, hfound⟩
    exact ⟨hrenders, (Except.ok.inj hfound).symm⟩
  · rintro ⟨hrenders, rfl⟩
    exact ⟨hrenders, rfl⟩

/-- The recorded decision passes when it has a canonical text. -/
lemma Decided.checkRecordedDecision_iff {u : Unit} :
    Kanban.checkRecordedDecision pf m (decisionPath home id)
      (d.summary home id routing gate result) (d.decidedTask home id task routing gate result)
      (d.decidedRouting home id routing gate result) = .ok u ↔
      Renders pf (d.summary home id routing gate result) := by
  obtain ⟨resolved, hresolved⟩ := h.resolves
  have hfinal : getValue "final_stage" (d.summary home id routing gate result) = .str "done" := by
    have hstage : d.finalStage = ("done" : Text) := by rw [Decision.finalStage, if_pos h.allow]
    rw [← hstage]
    rfl
  have hpath : getValue "decision_artifact_path" (d.summary home id routing gate result) =
      .str (decisionPath home id) := rfl
  unfold Kanban.checkRecordedDecision
  simp only [Kanban.stop_bind_eq_ok, Kanban.refuseUnless_eq_ok, getValue_decidedTask.2.1,
    getValue_decidedRouting.2.1, dictOr_obj, Except.ok.injEq, exists_eq_left', exists_const,
    refuseUnlessSame_iff, agree_self_iff, eqv_str_iff, hfinal, true_and]
  rw [hpath]
  simp only [Kanban.stop_bind_eq_ok, Kanban.refuseUnless_eq_ok, Kanban.raising_eq_ok, hresolved,
    Except.ok.injEq, exists_eq_left', decide_true, and_true, and_self]

omit h in
/-- The decision repeats what it has to. -/
lemma getValue_summary {execution : List (Text × Value)}
    (hexecution : getValue "execution" routing = .obj execution) :
    ∀ p ∈ Kanban.provenance routing execution result,
      getValue p.1 (d.summary home id routing gate result) = p.2 := by
  have hat : (dictAt "execution" routing).getD [] = execution := by
    rw [dictAt, hexecution]
    rfl
  have hprofile : getValue "profile" (d.summary home id routing gate result) =
      getValue "profile" execution := by
    rw [← hat]
    rfl
  simp only [Kanban.provenance, List.forall_mem_cons, List.not_mem_nil, false_imp_iff,
    implies_true, and_true]
  exact ⟨rfl, rfl, rfl, rfl, rfl, rfl, hprofile, rfl, rfl, rfl⟩

omit h in
lemma provenance_decidedRouting (execution : List (Text × Value)) :
    Kanban.provenance (d.decidedRouting home id routing gate result) execution result =
      Kanban.provenance routing execution result := by
  have hsame := (@getValue_decidedRouting home id d routing gate result).2.2
  unfold Kanban.provenance
  rw [hsame "pattern" (by decide) (by decide), hsame "executor" (by decide) (by decide),
    hsame "reviewer" (by decide) (by decide), hsame "route_source" (by decide) (by decide)]

/-- The execution passes when both records hold the result the decision is about. -/
lemma Decided.checkExecution_iff {u : Unit} :
    Kanban.checkExecution pf (d.decidedGate home id gate) (d.summary home id routing gate result)
      (d.decidedTask home id task routing gate result)
      (d.decidedRouting home id routing gate result) = .ok u ↔
      (∃ first, getValue "execution_result" task = .obj first ∧
        getValue "execution_result" routing = .obj result ∧ Kanban.Agree pf first result) ∧
      ∃ execution, getValue "execution" routing = .obj execution ∧
        ∀ p ∈ Kanban.provenance routing execution result, p.2.eqv p.2 = true := by
  have hsame := (@getValue_decidedRouting home id d routing gate result).2.2
  have htaskResult : getValue "execution_result" (d.decidedTask home id task routing gate result) =
      getValue "execution_result" task :=
    getValue_decidedTask.2.2.2 _ (by decide) (by decide) (by decide)
  unfold Kanban.checkExecution
  simp only [Kanban.stop_bind_eq_ok, Kanban.refuseUnless_eq_ok, dictOr_iff, refuseUnlessSame_iff,
    exists_const, Bool.and_eq_true, eqv_str_iff, htaskResult,
    hsame "execution_result" (by decide) (by decide), hsame "execution" (by decide) (by decide),
    List.all_eq_true]
  constructor
  · rintro ⟨first, hfirst, found, hfound, hagree, ⟨hstage, -⟩, -, execution, hexecution, hall⟩
    have htruthy : (Value.obj found).truthy = true := by
      cases found with
      | nil => cases hstage
      | cons p found => rfl
    have hresult := h.pending.foundResult
    rw [firstOf, hfound, if_pos htruthy] at hresult
    obtain rfl := Value.obj.inj hresult
    rw [provenance_decidedRouting] at hall
    refine ⟨⟨first, hfirst, hfound, hagree⟩, execution, hexecution, fun p hp => ?_⟩
    have heq := hall p hp
    rwa [@getValue_summary home id d routing gate found execution hexecution p hp] at heq
  · rintro ⟨⟨first, hfirst, hfound, hagree⟩, execution, hexecution, hall⟩
    refine ⟨first, hfirst, result, hfound, hagree, ⟨h.pending.controllerStage,
      h.pending.controllerStatus⟩, ?_, execution, hexecution, fun p hp => ?_⟩
    · rw [h.pending.required, h.pending.lifecycle]
      exact eqv_str_iff.mpr rfl
    · rw [provenance_decidedRouting] at hp
      rw [getValue_summary hexecution p hp]
      exact hall p hp

/-- Past the gate and its decision, the answer depends on what is left. -/
lemma Decided.checkCloseout_iff {payload : List (Text × Value)} {bytes : Bytes}
    (hpath : getValue "gate_decision_path" payload = .str (decisionPath home id))
    (hfile : files (decisionPath home id) = some bytes)
    (hhash : getValue "gate_decision_hash" payload = .str (pf.sha256 bytes)) :
    Kanban.checkCloseout pf instant m db payload binding = .ok () ↔
      Remaining pf instant m db binding home id d task routing gate result := by
  have hdecided : getValue "decided_at" (d.summary home id routing gate result) =
      .str d.decidedAt := rfl
  have hinput : m.tasksFile (id ++ ("-gate-review-input.md" : Text)) =
      tasksFile home (id ++ ("-gate-review-input.md" : Text)) := h.shows.tasksFile _
  unfold Kanban.checkCloseout
  rw [h.checkDecision hpath hfile hhash]
  simp only [Kanban.stop_bind_eq_ok, Kanban.refuseUnless_eq_ok, Kanban.raising_eq_ok,
    Except.ok.injEq, exists_eq_left']
  constructor
  · rintro ⟨⟨_, _⟩, hrecords, _, hgate, _, hrecorded, _, hexecution, _, hreview, _, htimes, -, hnamed,
      -, hnight, used, hused, hfresh⟩
    obtain ⟨⟨htaskId, hroutingId⟩, hfound⟩ := h.readRecords_iff.mp hrecords
    obtain ⟨rfl, rfl⟩ := Prod.mk.inj hfound
    obtain ⟨hgateRenders, rfl⟩ := h.checkGate_iff.mp hgate
    obtain ⟨hresults, hexecution⟩ := h.checkExecution_iff.mp hexecution
    obtain ⟨text, summary, htext, hsummary, hcontains⟩ := Kanban.checkReviewInput_eq_ok hreview
    obtain ⟨decided, terminal, last, hparsed, hterminal, hlast, hlater⟩ :=
      Kanban.checkTimes_eq_ok htimes
    rw [Bool.not_eq_true', Bool.or_eq_false_iff] at hnight
    rw [Bool.not_eq_true'] at hfresh
    subst hfresh
    rw [hinput] at htext
    refine ⟨htaskId, hroutingId, hgateRenders, h.checkRecordedDecision_iff.mp hrecorded, hresults,
      hexecution, ⟨text, summary, htext, hsummary, hcontains⟩,
      ⟨decided, terminal, last, hparsed, hterminal, hlast, hlater⟩, eqv_str_iff.mp hnamed,
      ⟨fun heq => ?_, fun heq => ?_⟩, hused⟩
    · rw [heq, eqv_str_iff.mpr rfl] at hnight
      cases hnight.1
    · rw [heq, eqv_str_iff.mpr rfl] at hnight
      cases hnight.2
  · intro hleft
    obtain ⟨text, summary, htext, hsummary, hcontains⟩ := hleft.review
    obtain ⟨decided, terminal, last, hparsed, hterminal, hlast, hlater⟩ := hleft.times
    have hreview : Kanban.checkReviewInput pf m id binding = .ok () := by
      unfold Kanban.checkReviewInput
      simp only [hinput, Kanban.stop_bind_eq_ok, Kanban.refuseUnless_eq_ok, Kanban.raising_eq_ok,
        htext, hsummary, Except.ok.injEq, exists_eq_left', exists_const]
      exact ⟨isFile_of_readText h.shows htext, hcontains⟩
    have htimes : Kanban.checkTimes instant (d.summary home id routing gate result) binding =
        .ok () := by
      unfold Kanban.checkTimes
      rw [hdecided, hparsed, hterminal, hlast]
      simp [hlater]
    have hnight : (!((getValue "night_task_id" binding).eqv (.str id) ||
        (getValue "night_request_id" binding).eqv (.str id))) = true := by
      rw [Bool.not_eq_true', Bool.or_eq_false_iff, ← Bool.not_eq_true, ← Bool.not_eq_true,
        eqv_str_iff, eqv_str_iff]
      exact hleft.night
    exact ⟨_, h.readRecords_iff.mpr ⟨⟨hleft.taskId, hleft.routingId⟩, rfl⟩, _,
      h.checkGate_iff.mpr ⟨hleft.gateRenders, rfl⟩, (),
      h.checkRecordedDecision_iff.mpr hleft.decisionRenders, (),
      h.checkExecution_iff.mpr ⟨hleft.results, hleft.execution⟩, (), hreview, (), htimes, (),
      eqv_str_iff.mpr hleft.named, (), hnight, false, hleft.fresh, rfl⟩

end

lemma stays_firstOf {a b : Value} {items : List (Text × Value)} (ha : Stays a) (hb : Stays b)
    (h : firstOf a b = .obj items) : settledPairs items = items := by
  unfold firstOf at h
  split at h
  · exact stays_obj_iff.mp (h ▸ ha)
  · exact stays_obj_iff.mp (h ▸ hb)

end

/-! ## Only a complete ALLOW is accepted -/

section
variable {pf : Platform} {instant : Text → Option ℤ} {m : Kanban.Moment} {db : Kanban.Db}
  {card : Kanban.Card} {payload binding : List (Text × Value)} {home id : Text} {room n : ℕ}
  {files : Files} {d : Decision} {task routing gate result : List (Text × Value)}

/-- However often a gate is decided, and wherever the calls end, a closeout of the task is accepted
only when the one call that wrote anything was an ALLOW that wrote all its files. -/
theorem allowed_of_accepted {calls : List (Decision × ℕ)} (hid : 0x2F ∉ id)
    (hplainId : PlainText id) (hpath : PlainText (decisionPath home id))
    (hcalls : ∀ call ∈ calls, call.1.IsPlain) (hdepth : n + 2 ≤ m.yamlDepth)
    (hfit : RecordsFit pf.toRuntime home id m.yamlDepth n files)
    (hundecided : Undecided pf.toRuntime home id m.yamlDepth files)
    (hshows : Shows m home (runDecisions pf.toRuntime home id room m.yamlDepth files calls))
    (hnamed : getValue "closeout_task_id" binding = .str id)
    (h : Kanban.validateGate pf instant m db card payload binding = .ok none) :
    ∃ before d reach after writes, calls = before ++ (d, reach) :: after ∧
      d.decision = ("ALLOW" : Text) ∧
      runDecisions pf.toRuntime home id room m.yamlDepth files before = files ∧
      decisionWrites pf.toRuntime home id m.yamlDepth d files = .ok writes ∧
      writeAll pf.toRuntime room files writes =
        (runDecisions pf.toRuntime home id room m.yamlDepth files calls, .ok ()) := by
  obtain ⟨routing', gate', hread, hgate, hstatus, hallow⟩ := routing_of_accepted hshows hnamed h
  rcases @runDecisions_cases pf.toRuntime home id m.yamlDepth room files hid calls with hsame |
    ⟨before, d, reach, after, hcalls', hbefore, hrun⟩
  · rw [hsame] at hread
    exact absurd hstatus (hundecided _ _ hread hgate)
  rw [hrun] at hread ⊢
  rcases @runGateDecision_cases pf.toRuntime home id m.yamlDepth room d files reach with hsame |
    ⟨task, routing, gate, result, done, hbegun, hwrites, -, hdone, hwrote⟩
  · rw [hsame] at hread
    exact absurd hstatus (hundecided _ _ hread hgate)
  by_cases hmem : routingPath home id ∈ done.map Prod.fst
  swap
  · -- the routing is still the one the call began with
    rw [readRecord_congr (hwrote.keeps hmem)] at hread
    exact absurd hstatus (hundecided _ _ hread hgate)
  obtain rfl := prefix_eq_of_mem hid hdone hmem
  have hd : d.IsPlain := hcalls (d, reach) (by rw [hcalls']; simp)
  have hmem : (routingPath home id, d.decidedRouting home id routing gate result) ∈
      writesOf home id d task routing gate result := by simp [writesOf]
  rw [readRecord_of_wrote hid hdepth hwrote hmem (hbegun.fit hplainId hpath hd hfit _ hmem)] at hread
  obtain rfl := Value.obj.inj (Except.ok.inj hread)
  rw [getValue_settledPairs, getValue_decidedRouting.1, settledEntry_obj] at hgate
  obtain rfl := Value.obj.inj hgate
  rw [getValue_settledPairs, getValue_decidedGate.2.1] at hallow
  exact ⟨before, d, reach, after, _, hcalls', Value.str.inj hallow, hbefore, hwrites,
    hwrote.writeAll_eq⟩

/-- The files an ALLOW has written are read back as what it decided. -/
lemma decided_of_complete {before : Files} (hid : id ≠ [] ∧ 0x2F ∉ id) (hplainId : PlainText id)
    (hplainPath : PlainText (decisionPath home id)) (hd : d.IsPlain) (hdepth : n + 2 ≤ m.yamlDepth)
    (hfit : RecordsFit pf.toRuntime home id m.yamlDepth n before)
    (hbegun : Begun pf.toRuntime home id m.yamlDepth d before task routing gate result)
    (hsettled : settledPairs task = task ∧ settledPairs routing = routing)
    (hallow : d.decision = ("ALLOW" : Text))
    (hcomplete : writeAll pf.toRuntime room before (writesOf home id d task routing gate result) =
      (files, .ok ()))
    (hshows : Shows m home files)
    (hresolves : ∃ resolved, m.disk.resolve (decisionPath home id) = .ok resolved) :
    Decided pf m home id d task routing gate result files := by
  obtain ⟨htask, hrouting⟩ := hsettled
  have hgate := stays_firstOf (stays_getValue hrouting _) (stays_getValue htask _)
    hbegun.pending.foundGate
  have hresult := stays_firstOf (stays_getValue hrouting _) (stays_getValue htask _)
    hbegun.pending.foundResult
  have hwrote := wrote_of_complete hcomplete
  have hwritten := hbegun.fit hplainId hplainPath hd hfit
  have hread : ∀ path data, (path, data) ∈ writesOf home id d task routing gate result →
      readRecord pf.toRuntime m.yamlDepth files path = .ok (.obj (settledPairs data)) :=
    fun path data hmem => readRecord_of_wrote hid.2 hdepth hwrote hmem (hwritten _ hmem)
  refine ⟨hshows, hallow, hid, hbegun.pending, ?_, ?_, ?_, hresolves⟩
  · rw [hread _ (d.summary home id routing gate result) (by simp [writesOf]),
      settledPairs_summary hrouting hgate hresult]
  · rw [hread _ (d.decidedTask home id task routing gate result) (by simp [writesOf]),
      settledPairs_decidedTask hrouting hgate hresult htask]
  · rw [hread _ (d.decidedRouting home id routing gate result) (by simp [writesOf]),
      settledPairs_decidedRouting hrouting hgate hresult]

/-- Once an ALLOW has written all its files, `_validate_gate` accepts the closeout exactly when what
is left agrees: no check of the gate and of its decision can fail any more. -/
theorem accepted_iff {before : Files} {bytes : Bytes} (hid : id ≠ [] ∧ 0x2F ∉ id)
    (hplainId : PlainText id) (hplainPath : PlainText (decisionPath home id)) (hd : d.IsPlain)
    (hdepth : n + 2 ≤ m.yamlDepth)
    (hfit : RecordsFit pf.toRuntime home id m.yamlDepth n before)
    (hbegun : Begun pf.toRuntime home id m.yamlDepth d before task routing gate result)
    (hsettled : settledPairs task = task ∧ settledPairs routing = routing)
    (hallow : d.decision = ("ALLOW" : Text))
    (hcomplete : writeAll pf.toRuntime room before (writesOf home id d task routing gate result) =
      (files, .ok ()))
    (hshows : Shows m home files)
    (hresolves : ∃ resolved, m.disk.resolve (decisionPath home id) = .ok resolved)
    (hpath : getValue "gate_decision_path" payload = .str (decisionPath home id))
    (hfile : files (decisionPath home id) = some bytes)
    (hhash : getValue "gate_decision_hash" payload = .str (pf.sha256 bytes)) :
    Kanban.validateGate pf instant m db card payload binding = .ok none ↔
      Remaining pf instant m db binding home id d task routing gate result := by
  have hdecided := decided_of_complete hid hplainId hplainPath hd hdepth hfit hbegun hsettled hallow
    hcomplete hshows hresolves
  rw [validateGate_eq_none]
  exact hdecided.checkCloseout_iff hpath hfile hhash

end

/-! ### A gate that is allowed -/

def sampleGate : List (Text × Value) :=
  [(("type" : Text), .str "stop_gate"), ("status", .str "pending")]

def sampleResult : List (Text × Value) :=
  [(("gate_required" : Text), .bool true), ("lifecycle_stage", .str "waiting_user"),
    ("controller_lifecycle_stage", .str "done"), ("controller_status", .str "done")]

def sampleTask : List (Text × Value) :=
  [(("task_id" : Text), .str "T"), ("stage", .str "waiting_user"), ("gate", .obj sampleGate),
    ("execution_result", .obj sampleResult)]

def sampleRouting : List (Text × Value) :=
  [(("task_id" : Text), .str "T"), ("stop_gate", .bool true), ("gate", .obj sampleGate),
    ("execution", .obj [("profile", .str "p")]), ("execution_result", .obj sampleResult)]

def sampleDecision : Decision := ⟨"ALLOW", none, "2026-01-01T00:00:00+00:00"⟩

/-- The bytes of a record. -/
def fileOf (data : List (Text × Value)) : Option Bytes :=
  match writeYaml .standard 9 data with
  | .ok bytes => some bytes
  | .error _ => none

/-- The files of a task that waits for its gate, with the input of its review. -/
def sampleFiles : Files := fun path =>
  if path = taskPath "h" "T" then fileOf sampleTask
  else if path = routingPath "h" "T" then fileOf sampleRouting
  else if path = tasksFile "h" "T-gate-review-input.md" then encodeStrict Kanban.closeoutInput
  else none

def decidedFiles : Files :=
  runDecisions .standard "h" "T" 9 100 sampleFiles [(sampleDecision, 3)]

def sampleMoment : Kanban.Moment where
  disk :=
    { isDir := fun _ => true
      isFile := fun path => (decidedFiles path).isSome
      readText := readText decidedFiles
      readBytes := readBytes decidedFiles
      resolve := .ok
      loadProfile := fun _ => .ok [] }
  clock := Kanban.bareEnvironment.clock
  lower := id
  home := "h"
  yamlDepth := 100

def samplePayload : List (Text × Value) :=
  [(("gate_decision_path" : Text), .str "h/tasks/T-gate-decision.yaml"),
    ("gate_decision_hash", .str Kanban.placeDigest)]

lemma sampleRecords_plain : PlainPairs Runtime.standard sampleTask ∧
    PlainPairs Runtime.standard sampleRouting := by
  have hkeys : ∀ key ∈ (["task_id", "stage", "gate", "execution_result", "type", "status",
      "gate_required", "lifecycle_stage", "controller_lifecycle_stage", "controller_status",
      "stop_gate", "execution", "profile"] : List Text), PlainKey key := by decide
  have htexts : ∀ t ∈ (["T", "waiting_user", "stop_gate", "pending", "done", "p"] : List Text),
      PlainText t := by decide
  simp only [List.forall_mem_cons, List.not_mem_nil, false_imp_iff, implies_true, and_true]
    at hkeys htexts
  obtain ⟨htask, hstage, hgate, hexecution, htype, hstatus, hrequired, hlifecycle, hcontroller,
    hcontrollerStatus, hstop, hrun, hprofile⟩ := hkeys
  obtain ⟨hT, hwaiting, hgateText, hpending, hdone, hp⟩ := htexts
  have hgateItems : PlainPairs Runtime.standard sampleGate :=
    ⟨htype, hgateText, hstatus, hpending, trivial⟩
  have hresultItems : PlainPairs Runtime.standard sampleResult :=
    ⟨hrequired, trivial, hlifecycle, hwaiting, hcontroller, hdone, hcontrollerStatus, hdone, trivial⟩
  exact ⟨⟨htask, hT, hstage, hwaiting, hgate, hgateItems, hexecution, hresultItems, trivial⟩,
    ⟨htask, hT, hstop, trivial, hgate, hgateItems, hrun, ⟨hprofile, hp, trivial⟩, hexecution,
      hresultItems, trivial⟩⟩

lemma sampleTask_fit : Fit .standard 2 (.obj sampleTask) :=
  ⟨sampleRecords_plain.1, by decide, by decide⟩

lemma sampleRouting_fit : Fit .standard 2 (.obj sampleRouting) :=
  ⟨sampleRecords_plain.2, by decide, by decide⟩

lemma readRecord_fileOf {files : Files} {path : Text} {data : List (Text × Value)}
    (hfit : Fit .standard 2 (.obj data)) (hbytes : ∃ bytes, writeYaml .standard 9 data = .ok bytes)
    (hfile : files path = fileOf data) :
    readRecord .standard 100 files path = .ok (.obj (settledPairs data)) := by
  obtain ⟨bytes, hbytes⟩ := hbytes
  rw [fileOf, hbytes] at hfile
  rw [readRecord_of_bytes hfile]
  exact readYamlBytes_of_writeYaml hfit.plain hfit.keyed (hfit.depth.trans (by decide)) hbytes

/-- Where the files are. -/
lemma samplePaths : taskPath "h" "T" = "h/tasks/T.yaml" ∧
    routingPath "h" "T" = "h/tasks/T-routing.yaml" ∧
    decisionPath "h" "T" = "h/tasks/T-gate-decision.yaml" ∧
    tasksFile "h" "T-gate-review-input.md" = "h/tasks/T-gate-review-input.md" := by decide +kernel

/-- What the files and the board come to: the writes succeed, the input of the review is read and
shows its binding, the records have canonical texts, and the times are in order. -/
lemma sample_evaluated :
    ((writeYaml .standard 9 sampleTask).toBool = true ∧
      (writeYaml .standard 9 sampleRouting).toBool = true ∧
      (writeAll .standard 9 sampleFiles (writesOf "h" "T" sampleDecision sampleTask sampleRouting
        sampleGate sampleResult)).2.toBool = true) ∧
    ((readText sampleFiles (tasksFile "h" "T-gate-review-input.md")).toOption =
        some Kanban.closeoutInput ∧
      (Kanban.embeddedTaskSummary Runtime.standard Kanban.closeoutInput).toOption = some (some
        (Kanban.renderCloseoutBinding Runtime.standard (Kanban.closeoutBinding "a" "T"))) ∧
      contains (Kanban.renderCloseoutBinding Runtime.standard (Kanban.closeoutBinding "a" "T"))
        (Kanban.renderCloseoutBinding Runtime.standard (Kanban.closeoutBinding "a" "T")) = true) ∧
    ((Kanban.canonicalJson Runtime.standard
        (.obj (sampleDecision.decidedGate "h" "T" sampleGate))).toBool = true ∧
      (Kanban.canonicalJson Runtime.standard (.obj (sampleDecision.summary "h" "T" sampleRouting
        sampleGate sampleResult))).toBool = true ∧
      (Kanban.canonicalJson Runtime.standard (.obj sampleResult)).toBool = true) ∧
    ((Kanban.provenance sampleRouting [("profile", .str "p")] sampleResult).all
        (fun p => p.2.eqv p.2) = true ∧
      Kanban.parseTime Kanban.closeoutInstant (.str sampleDecision.decidedAt) =
        some 1767225600000000 ∧
      Kanban.parseTime Kanban.closeoutInstant
        (getValue "terminal_done_at" (Kanban.closeoutBinding "a" "T")) = some 1577836800000000 ∧
      Kanban.parseTime Kanban.closeoutInstant
        (getValue "last_seal_at" (Kanban.closeoutBinding "a" "T")) = some 1577836800000000) := by
  decide +kernel

lemma ok_of_toOption {α : Type} {x : Except Exc α} {a : α} (h : x.toOption = some a) : x = .ok a := by
  cases x with
  | ok b => exact congrArg Except.ok (Option.some.inj h)
  | error e => cases h

lemma exists_ok {α : Type} {x : Except Exc α} (h : x.toBool = true) : ∃ a, x = .ok a := by
  cases x with
  | ok a => exact ⟨a, rfl⟩
  | error e => cases h

lemma sample_absent : sampleFiles (decisionPath "h" "T") = none := by
  obtain ⟨htask, hrouting, hdecision, hinput⟩ := samplePaths
  rw [sampleFiles, htask, hrouting, hdecision, hinput, if_neg (by decide), if_neg (by decide),
    if_neg (by decide)]

lemma sample_undecided : gateDecision sampleTask sampleRouting = none := rfl

lemma sample_pending : Pending sampleTask sampleRouting sampleGate sampleResult :=
  ⟨rfl, rfl, rfl, rfl, rfl, rfl, rfl, rfl, rfl, rfl⟩

/-- What the call finds. -/
lemma sample_begun : Begun .standard "h" "T" 100 sampleDecision sampleFiles sampleTask sampleRouting
    sampleGate sampleResult where
  verdict := .inl rfl
  readTask := readRecord_fileOf sampleTask_fit (exists_ok sample_evaluated.1.1) (if_pos rfl)
  readRouting := by
    refine readRecord_fileOf sampleRouting_fit (exists_ok sample_evaluated.1.2.1) ?_
    rw [sampleFiles, if_neg (@paths_ne "h" "T" (by decide)).2.2.symm, if_pos rfl]
  absent := sample_absent
  undecided := sample_undecided
  pending := sample_pending

lemma sampleDecision_plain : sampleDecision.IsPlain where
  decision := by decide
  reason := fun _ h => nomatch h
  decidedAt := by decide

lemma sampleFiles_fit : RecordsFit .standard "h" "T" 100 1 sampleFiles := by
  rintro path (rfl | rfl) items hread
  · rw [sample_begun.readTask] at hread
    exact Value.obj.inj (Except.ok.inj hread) ▸ sampleTask_fit
  · rw [sample_begun.readRouting] at hread
    exact Value.obj.inj (Except.ok.inj hread) ▸ sampleRouting_fit

lemma sampleFiles_undecided : Undecided .standard "h" "T" 100 sampleFiles := by
  intro routing gate hread hgate
  rw [sample_begun.readRouting] at hread
  obtain rfl := Value.obj.inj (Except.ok.inj hread)
  obtain rfl : sampleGate = gate := Value.obj.inj hgate
  rw [sample_pending.status]
  exact fun h => absurd (Value.str.inj h) (by decide)

lemma sampleMoment_shows : Shows sampleMoment "h" decidedFiles where
  home := rfl
  isFile path := by simp only [sampleMoment]
  readBytes path := by simp only [sampleMoment]
  readText path := by simp only [sampleMoment]

def sampleCard : Kanban.Card := Kanban.Card.blank Kanban.bareEnvironment.clock 0 "a"

/-- The writes of the decision succeed. -/
lemma sampleFiles_decided : writeAll .standard 9 sampleFiles
    (writesOf "h" "T" sampleDecision sampleTask sampleRouting sampleGate sampleResult) =
      (decidedFiles, .ok ()) := by
  have hwrites := sample_begun.decisionWrites_eq
  have hdecided : decidedFiles = (writeAll .standard 9 sampleFiles
      (writesOf "h" "T" sampleDecision sampleTask sampleRouting sampleGate sampleResult)).1 := by
    rw [decidedFiles, runDecisions, List.foldl_cons, List.foldl_nil, runGateDecision, hwrites]
    rfl
  have hok := sample_evaluated.1.2.2
  rw [hdecided]
  cases hwritten : writeAll .standard 9 sampleFiles
      (writesOf "h" "T" sampleDecision sampleTask sampleRouting sampleGate sampleResult) with
  | mk files returned =>
      rw [hwritten] at hok
      obtain ⟨u, hu⟩ := exists_ok hok
      exact congrArg (Prod.mk files) hu

/-- The input of the review is still there. -/
lemma sampleInput : ∃ text summary,
    sampleMoment.disk.readText (tasksFile "h" ("T" ++ ("-gate-review-input.md" : Text))) = .ok text ∧
    Kanban.embeddedTaskSummary Runtime.standard text = .ok (some summary) ∧
    contains (Kanban.renderCloseoutBinding Runtime.standard (Kanban.closeoutBinding "a" "T"))
      summary = true := by
  obtain ⟨hinput, hsummary, hcontains⟩ := sample_evaluated.2.1
  obtain ⟨htask, hrouting, hdecision, hpath⟩ := samplePaths
  have hother : decidedFiles (tasksFile "h" "T-gate-review-input.md") =
      sampleFiles (tasksFile "h" "T-gate-review-input.md") := by
    refine (wrote_of_complete sampleFiles_decided).keeps ?_
    simp only [writesOf, List.map_cons, List.map_nil]
    rw [htask, hrouting, hdecision, hpath]
    decide
  refine ⟨Kanban.closeoutInput, Kanban.renderCloseoutBinding Runtime.standard
    (Kanban.closeoutBinding "a" "T"), ?_, ok_of_toOption hsummary, hcontains⟩
  have hread : sampleMoment.disk.readText (tasksFile "h" "T-gate-review-input.md") =
      readText sampleFiles (tasksFile "h" "T-gate-review-input.md") := by
    rw [sampleMoment_shows.readText, readText, readText, readBytes, readBytes, hother]
  exact hread.trans (ok_of_toOption hinput)

lemma sample_remaining : Remaining Kanban.closeoutPlatform Kanban.closeoutInstant sampleMoment
    (Kanban.Db.fresh []) (Kanban.closeoutBinding "a" "T") "h" "T" sampleDecision sampleTask
    sampleRouting sampleGate sampleResult where
  taskId := rfl
  routingId := rfl
  gateRenders := exists_ok sample_evaluated.2.2.1.1
  decisionRenders := exists_ok sample_evaluated.2.2.1.2.1
  results := by
    obtain ⟨bytes, hbytes⟩ := exists_ok sample_evaluated.2.2.1.2.2
    exact ⟨sampleResult, rfl, rfl, bytes, hbytes, hbytes⟩
  execution := ⟨_, rfl, List.all_eq_true.mp sample_evaluated.2.2.2.1⟩
  review := sampleInput
  times := by
    obtain ⟨-, hdecided, hterminal, hsealed⟩ := sample_evaluated.2.2.2
    exact ⟨_, _, _, hdecided, hterminal, hsealed, by decide, by decide⟩
  named := rfl
  night := ⟨fun h => absurd (Value.str.inj h) (by decide), fun h => absurd (Value.str.inj h)
    (by decide)⟩
  fresh := rfl

lemma sample_plainPath : PlainText (decisionPath "h" "T") := by
  rw [samplePaths.2.2.1]
  decide

lemma sample_file : ∃ bytes, decidedFiles (decisionPath "h" "T") = some bytes := by
  have hnodup : ((writesOf "h" "T" sampleDecision sampleTask sampleRouting sampleGate
      sampleResult).map Prod.fst).Nodup := by
    obtain ⟨hdt, hdr, htr⟩ := @paths_ne "h" "T" (by decide)
    simp [writesOf, hdt, hdr, htr]
  obtain ⟨bytes, -, hfile⟩ := (wrote_of_complete sampleFiles_decided).holds hnodup List.mem_cons_self
  exact ⟨bytes, hfile⟩

/-- The board takes the gate. -/
lemma sample_accepted : Kanban.validateGate Kanban.closeoutPlatform Kanban.closeoutInstant
    sampleMoment (Kanban.Db.fresh []) sampleCard samplePayload
    (Kanban.closeoutBinding "a" "T") = .ok none := by
  obtain ⟨bytes, hfile⟩ := sample_file
  have hdecided := @decided_of_complete Kanban.closeoutPlatform sampleMoment "h" "T" 9 1
    decidedFiles sampleDecision sampleTask sampleRouting sampleGate sampleResult sampleFiles
    ⟨by decide, by decide⟩ (by decide) sample_plainPath sampleDecision_plain (by decide)
    sampleFiles_fit sample_begun ⟨rfl, rfl⟩ rfl sampleFiles_decided sampleMoment_shows ⟨_, rfl⟩
  have hpath : getValue "gate_decision_path" samplePayload = .str (decisionPath "h" "T") :=
    congrArg Value.str samplePaths.2.2.1.symm
  rw [validateGate_eq_none]
  exact (hdecided.checkCloseout_iff hpath hfile rfl).mpr sample_remaining

theorem allowed_of_accepted_sample :
    ∃ before d reach after writes, [(sampleDecision, 3)] = before ++ (d, reach) :: after ∧
      d.decision = ("ALLOW" : Text) ∧
      runDecisions .standard "h" "T" 9 100 sampleFiles before = sampleFiles ∧
      decisionWrites .standard "h" "T" 100 d sampleFiles = .ok writes ∧
      writeAll .standard 9 sampleFiles writes = (decidedFiles, .ok ()) :=
  @allowed_of_accepted Kanban.closeoutPlatform Kanban.closeoutInstant sampleMoment
    (Kanban.Db.fresh []) sampleCard samplePayload (Kanban.closeoutBinding "a" "T") "h" "T" 9 1
    sampleFiles [(sampleDecision, 3)] (by decide) (by decide) sample_plainPath
    (fun _ hcall => List.mem_singleton.mp hcall ▸ sampleDecision_plain) (by decide) sampleFiles_fit
    sampleFiles_undecided sampleMoment_shows rfl sample_accepted

theorem accepted_iff_sample :
    Kanban.validateGate Kanban.closeoutPlatform Kanban.closeoutInstant sampleMoment
      (Kanban.Db.fresh []) sampleCard samplePayload (Kanban.closeoutBinding "a" "T") = .ok none := by
  obtain ⟨bytes, hfile⟩ := sample_file
  exact (@accepted_iff Kanban.closeoutPlatform Kanban.closeoutInstant sampleMoment
    (Kanban.Db.fresh []) sampleCard samplePayload (Kanban.closeoutBinding "a" "T") "h" "T" 9 1
    decidedFiles sampleDecision sampleTask sampleRouting sampleGate sampleResult sampleFiles bytes
    ⟨by decide, by decide⟩ (by decide) sample_plainPath sampleDecision_plain (by decide)
    sampleFiles_fit sample_begun ⟨rfl, rfl⟩ rfl sampleFiles_decided sampleMoment_shows ⟨_, rfl⟩
    (congrArg Value.str samplePaths.2.2.1.symm) hfile rfl).mpr sample_remaining

end GateFiles

end AgentOrch
