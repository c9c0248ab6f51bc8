import AgentOrch.Properties.Closeouts
import AgentOrch.Properties.GateRecords

/-!
# From the decision of a gate to the completion of a card

`orch gate-allow` leaves its decision in three files, and the `done` command of the board reads them
back.  The process may end between two writes, and a decision may be tried again.
-/

namespace AgentOrch

open Py Json

namespace GateFiles

open Yaml

/-! ## Three files -/

/-- The joined pieces before the last one, with their separators. -/
lemma join_concat (sep a : Text) (pieces : List Text) :
    join sep (pieces ++ [a]) = (pieces.flatMap fun piece => piece ++ sep) ++ a := by
  induction pieces with
  | nil => rfl
  | cons piece pieces ih =>
      have hne : pieces ++ [a] ≠ [] := by simp
      obtain ⟨next, rest, hrest⟩ := List.exists_cons_of_ne_nil hne
      rw [List.cons_append, hrest, join, ← hrest, ih, List.flatMap_cons, List.append_assoc,
        List.append_assoc, List.append_assoc]
      exact List.cons_ne_nil _ _

lemma tasksFile_eq {home name : Text} (h : IsPart name) : tasksFile home name =
    (if ((PurePath.ofText home).joinpath "tasks").absolute then ("/" : Text) else []) ++
      ((((PurePath.ofText home).joinpath "tasks").parts.flatMap fun piece => piece ++ ("/" : Text)) ++
        name) := by
  rw [tasksFile, PurePath.text, PurePath.parts_joinpath h, PurePath.absolute_joinpath h,
    if_neg (by simp), join_concat]

lemma tasksFile_inj {home a b : Text} (ha : IsPart a) (hb : IsPart b)
    (h : tasksFile home a = tasksFile home b) : a = b := by
  rw [tasksFile_eq ha, tasksFile_eq hb] at h
  exact List.append_cancel_left (List.append_cancel_left h)

section
variable {home id : Text}

lemma isPart_name {suffix : Text} (hid : 0x2F ∉ id) (hsuffix : 0x2F ∉ suffix)
    (hlong : 2 ≤ suffix.length) : IsPart (id ++ suffix) := by
  refine ⟨fun h => ?_, fun h => ?_, fun h => ?_⟩
  · have hlength := congrArg List.length h
    rw [List.length_append, List.length_nil] at hlength
    omega
  · have hlength := congrArg List.length h
    have hdot : (("." : Text)).length = 1 := rfl
    rw [List.length_append, hdot] at hlength
    omega
  · exact (List.mem_append.mp h).elim hid hsuffix

/-- The three files are three. -/
lemma paths_ne (hid : 0x2F ∉ id) : decisionPath home id ≠ taskPath home id ∧
    decisionPath home id ≠ routingPath home id ∧ taskPath home id ≠ routingPath home id := by
  have htask : IsPart (id ++ (".yaml" : Text)) := isPart_name hid (by decide) (by decide)
  have hrouting : IsPart (id ++ ("-routing.yaml" : Text)) := isPart_name hid (by decide) (by decide)
  have hdecision : IsPart (id ++ ("-gate-decision.yaml" : Text)) :=
    isPart_name hid (by decide) (by decide)
  refine ⟨fun h => ?_, fun h => ?_, fun h => ?_⟩
  · have hsuffix := List.append_cancel_left (tasksFile_inj hdecision htask h)
    exact absurd hsuffix (by decide)
  · have hsuffix := List.append_cancel_left (tasksFile_inj hdecision hrouting h)
    exact absurd hsuffix (by decide)
  · have hsuffix := List.append_cancel_left (tasksFile_inj htask hrouting h)
    exact absurd hsuffix (by decide)

end

/-! ## The pending gate -/

section
variable {rt : Runtime} {id : Text} {task routing gate result : List (Text × Value)}

lemma eq_str_of_isText {v : Value} {name : Text} (h : Lifecycle.isText v name = true) :
    v = .str name := Kanban.eq_str_of_eqv h

lemma eq_true_of_isTrue {v : Value} (h : isTrue v = true) : v = .bool true := by
  cases v with
  | bool b => exact congrArg Value.bool h
  | _ => cases h

/-- What `_require_pending_stop_gate` lets pass. -/
structure Pending (task routing gate result : List (Text × Value)) : Prop where
  stage : getValue "stage" task = .str "waiting_user"
  stopGate : getValue "stop_gate" routing = .bool true
  foundGate : firstOf (getValue "gate" routing) (getValue "gate" task) = .obj gate
  type : getValue "type" gate = .str "stop_gate"
  status : getValue "status" gate = .str "pending"
  foundResult : firstOf (getValue "execution_result" routing) (getValue "execution_result" task) =
    .obj result
  required : getValue "gate_required" result = .bool true
  lifecycle : getValue "lifecycle_stage" result = .str "waiting_user"
  controllerStage : getValue "controller_lifecycle_stage" result = .str "done"
  controllerStatus : getValue "controller_status" result = .str "done"

lemma requirePendingStopGate_eq_ok
    (h : requirePendingStopGate rt id task routing = .ok (gate, result)) :
    Pending task routing gate result := by
  obtain ⟨_, hstage, h⟩ := bind_eq_ok.mp h
  obtain ⟨_, hstop, h⟩ := bind_eq_ok.mp h
  split at h
  next found hgate =>
    obtain ⟨_, htype, h⟩ := bind_eq_ok.mp h
    split at h
    next found' hresult =>
      obtain ⟨_, hrequired, h⟩ := bind_eq_ok.mp h
      obtain ⟨_, hlifecycle, h⟩ := bind_eq_ok.mp h
      obtain ⟨_, hcontroller, h⟩ := bind_eq_ok.mp h
      cases h
      rw [require_eq_ok, Bool.and_eq_true] at htype hcontroller
      exact ⟨eq_str_of_isText (require_eq_ok.mp hstage), eq_true_of_isTrue (require_eq_ok.mp hstop),
        hgate, eq_str_of_isText htype.1, eq_str_of_isText htype.2, hresult,
        eq_true_of_isTrue (require_eq_ok.mp hrequired),
        eq_str_of_isText (require_eq_ok.mp hlifecycle), eq_str_of_isText hcontroller.1,
        eq_str_of_isText hcontroller.2⟩
    · cases h
  · cases h

lemma Pending.passes (h : Pending task routing gate result) :
    requirePendingStopGate rt id task routing = .ok (gate, result) := by
  unfold requirePendingStopGate
  rw [h.stage, h.stopGate, h.foundGate]
  dsimp only
  rw [h.type, h.status, h.foundResult]
  dsimp only
  rw [h.required, h.lifecycle, h.controllerStage, h.controllerStatus]
  simp only [Lifecycle.isText, Value.eqv, beq_self_eq_true, isTrue, Bool.and_self,
    require_true_bind]
  rfl

end

/-! ## The writes of a decision -/

section
variable {rt : Runtime} {home id : Text} {depth room : ℕ} {d : Decision} {files files' : Files}
  {writes : List (Text × List (Text × Value))}

/-- What a call has found when it begins to write. -/
structure Begun (rt : Runtime) (home id : Text) (depth : ℕ) (d : Decision) (files : Files)
    (task routing gate result : List (Text × Value)) : Prop where
  verdict : d.decision = ("ALLOW" : Text) ∨ d.decision = ("BLOCK" : Text)
  readTask : readRecord rt depth files (taskPath home id) = .ok (.obj task)
  readRouting : readRecord rt depth files (routingPath home id) = .ok (.obj routing)
  absent : files (decisionPath home id) = none
  undecided : gateDecision task routing = none
  pending : Pending task routing gate result

lemma decisionWrites_eq_ok (h : decisionWrites rt home id depth d files = .ok writes) :
    ∃ task routing gate result, Begun rt home id depth d files task routing gate result ∧
      writes = [(decisionPath home id, d.summary home id routing gate result),
        (taskPath home id, d.decidedTask home id task routing gate result),
        (routingPath home id, d.decidedRouting home id routing gate result)] := by
  obtain ⟨_, hverdict, h⟩ := bind_eq_ok.mp h
  obtain ⟨_, -, h⟩ := bind_eq_ok.mp h
  obtain ⟨_, -, h⟩ := bind_eq_ok.mp h
  obtain ⟨taskValue, htask, h⟩ := bind_eq_ok.mp h
  obtain ⟨routingValue, hrouting, h⟩ := bind_eq_ok.mp h
  obtain ⟨task, rfl⟩ : ∃ task, taskValue = .obj task := by
    cases taskValue with
    | obj task => exact ⟨task, rfl⟩
    | _ => cases h
  obtain ⟨routing, rfl⟩ : ∃ routing, routingValue = .obj routing := by
    cases routingValue with
    | obj routing => exact ⟨routing, rfl⟩
    | _ => cases h
  obtain ⟨_, hopen, h⟩ := bind_eq_ok.mp h
  obtain ⟨⟨gate, result⟩, hpending, h⟩ := bind_eq_ok.mp h
  cases h
  rw [require_eq_ok, Bool.and_eq_true, Option.isNone_iff_eq_none, Option.isNone_iff_eq_none]
    at hopen
  rw [require_eq_ok, Bool.or_eq_true, decide_eq_true_eq, decide_eq_true_eq] at hverdict
  exact ⟨task, routing, gate, result, ⟨hverdict, htask, hrouting, hopen.1, hopen.2,
    requirePendingStopGate_eq_ok hpending⟩, rfl⟩

/-- Where a call has found all that, it writes. -/
lemma Begun.decisionWrites_eq {task routing gate result : List (Text × Value)}
    (h : Begun rt home id depth d files task routing gate result) :
    decisionWrites rt home id depth d files = .ok
      [(decisionPath home id, d.summary home id routing gate result),
        (taskPath home id, d.decidedTask home id task routing gate result),
        (routingPath home id, d.decidedRouting home id routing gate result)] := by
  have hpresent : ∀ path items, readRecord rt depth files path = .ok (.obj items) →
      (files path).isSome = true := by
    intro path items hread
    cases hfile : files path with
    | none =>
        rw [readRecord, readText, readBytes, hfile] at hread
        cases hread
    | some bytes => rfl
  have hverdict : (decide (d.decision = ("ALLOW" : Text)) || decide (d.decision = ("BLOCK" : Text))) =
      true := by
    rw [Bool.or_eq_true, decide_eq_true_eq, decide_eq_true_eq]
    exact h.verdict
  unfold decisionWrites
  rw [hverdict, hpresent _ _ h.readTask, hpresent _ _ h.readRouting, h.readTask, h.readRouting]
  simp only [require_true_bind, returned_bind, h.absent, h.undecided, Option.isNone_none,
    Bool.and_self, h.pending.passes]
  rfl

/-- The files after some writes. -/
inductive Wrote (rt : Runtime) (room : ℕ) :
    Files → List (Text × List (Text × Value)) → Files → Prop
  | none (files : Files) : Wrote rt room files [] files
  | write {files files' : Files} {path : Text} {data : List (Text × Value)} {bytes : Bytes}
      {rest : List (Text × List (Text × Value))} (h : writeYaml rt room data = .ok bytes)
      (hrest : Wrote rt room (Function.update files path (some bytes)) rest files') :
      Wrote rt room files ((path, data) :: rest) files'

/-- A call writes its files from the first on; it returns when it has written all. -/
lemma writeAll_wrote (files : Files) (writes : List (Text × List (Text × Value))) :
    ∃ done left, writes = done ++ left ∧ Wrote rt room files done (writeAll rt room files writes).1 ∧
      ((writeAll rt room files writes).2 = .ok () ↔ left = []) := by
  induction writes generalizing files with
  | nil => exact ⟨[], [], rfl, .none files, by simp [writeAll]⟩
  | cons p rest ih =>
      obtain ⟨path, data⟩ := p
      rw [writeAll]
      cases hbytes : writeYaml rt room data with
      | ok bytes =>
          obtain ⟨done, left, hrest, hwrote, hresult⟩ := ih (Function.update files path (some bytes))
          exact ⟨(path, data) :: done, left, by rw [hrest, List.cons_append], .write hbytes hwrote,
            hresult⟩
      | error e => exact ⟨[], (path, data) :: rest, rfl, .none files, by simp⟩

/-- What returned has written all. -/
lemma wrote_of_complete (h : writeAll rt room files writes = (files', .ok ())) :
    Wrote rt room files writes files' := by
  obtain ⟨done, left, hsplit, hwrote, hreturned⟩ := @writeAll_wrote rt room files writes
  rw [h] at hwrote hreturned
  rw [hreturned.mp rfl, List.append_nil] at hsplit
  rwa [hsplit]

/-- A path that is not written keeps its file. -/
lemma Wrote.keeps (h : Wrote rt room files writes files') {path : Text}
    (hpath : path ∉ writes.map Prod.fst) : files' path = files path := by
  induction h with
  | none files => rfl
  | write hbytes hrest ih =>
      rw [List.map_cons, List.mem_cons, not_or] at hpath
      rw [ih hpath.2, Function.update_of_ne hpath.1]

lemma Wrote.keeps_all (h : Wrote rt room files writes files') (hnil : writes = []) :
    files' = files := by
  funext path
  exact h.keeps (by simp [hnil])

/-- A file that is written once holds what was written. -/
lemma Wrote.holds (h : Wrote rt room files writes files') (hnodup : (writes.map Prod.fst).Nodup)
    {path : Text} {data : List (Text × Value)} (hmem : (path, data) ∈ writes) :
    ∃ bytes, writeYaml rt room data = .ok bytes ∧ files' path = some bytes := by
  induction h with
  | none files => cases hmem
  | @write files files' first data' bytes rest hbytes hrest ih =>
      rw [List.map_cons, List.nodup_cons] at hnodup
      rcases List.mem_cons.mp hmem with heq | hmem
      · cases heq
        refine ⟨bytes, hbytes, ?_⟩
        rw [hrest.keeps hnodup.1, Function.update_self]
      · exact ih hnodup.2 hmem

/-! ## One call, and many -/

/-- What a call writes, in order. -/
def writesOf (home id : Text) (d : Decision) (task routing gate result : List (Text × Value)) :
    List (Text × List (Text × Value)) :=
  [(decisionPath home id, d.summary home id routing gate result),
    (taskPath home id, d.decidedTask home id task routing gate result),
    (routingPath home id, d.decidedRouting home id routing gate result)]

/-- A call leaves the files as they were, or it has begun and written some of its files. -/
lemma runGateDecision_cases (reach : ℕ) :
    (runGateDecision rt home id room depth d reach files).1 = files ∨
      ∃ task routing gate result done, Begun rt home id depth d files task routing gate result ∧
        decisionWrites rt home id depth d files = .ok (writesOf home id d task routing gate result) ∧
        done ≠ [] ∧ done <+: writesOf home id d task routing gate result ∧
        Wrote rt room files done (runGateDecision rt home id room depth d reach files).1 := by
  unfold runGateDecision
  cases hwrites : decisionWrites rt home id depth d files with
  | error e => exact .inl rfl
  | ok writes =>
      obtain ⟨task, routing, gate, result, hbegun, rfl⟩ := decisionWrites_eq_ok hwrites
      obtain ⟨done, left, htake, hwrote, -⟩ := @writeAll_wrote rt room files
        ((writesOf home id d task routing gate result).take reach)
      cases done with
      | nil => exact .inl (hwrote.keeps_all rfl)
      | cons p done =>
          refine .inr ⟨task, routing, gate, result, p :: done, hbegun, rfl, List.cons_ne_nil _ _,
            ?_, hwrote⟩
          exact (htake ▸ List.prefix_append _ _).trans (List.take_prefix _ _)

/-- Where a decision stands, a call leaves the files as they are. -/
lemma runGateDecision_of_present {reach : ℕ} (h : (files (decisionPath home id)).isSome = true) :
    (runGateDecision rt home id room depth d reach files).1 = files := by
  rcases @runGateDecision_cases rt home id depth room d files reach with hsame |
    ⟨task, routing, gate, result, done, hbegun, -⟩
  · exact hsame
  · rw [hbegun.absent] at h
    cases h

lemma runDecisions_of_present {calls : List (Decision × ℕ)}
    (h : (files (decisionPath home id)).isSome = true) :
    runDecisions rt home id room depth files calls = files := by
  induction calls with
  | nil => rfl
  | cons call calls ih =>
      rw [runDecisions, List.foldl_cons, runGateDecision_of_present h]
      exact ih

/-- A call that wrote anything wrote the decision. -/
lemma Wrote.present {task routing gate result : List (Text × Value)}
    {done : List (Text × List (Text × Value))} (hid : 0x2F ∉ id) (hne : done ≠ [])
    (hdone : done <+: writesOf home id d task routing gate result)
    (h : Wrote rt room files done files') : (files' (decisionPath home id)).isSome = true := by
  obtain ⟨hdt, hdr, htr⟩ := @paths_ne home id hid
  have hnodup : ((writesOf home id d task routing gate result).map Prod.fst).Nodup := by
    simp [writesOf, hdt, hdr, htr]
  have hnodup' : (done.map Prod.fst).Nodup := hnodup.sublist (hdone.map Prod.fst).sublist
  have hmem : (decisionPath home id, d.summary home id routing gate result) ∈ done := by
    obtain ⟨p, rest, rfl⟩ := List.exists_cons_of_ne_nil hne
    obtain ⟨left, hleft⟩ := hdone
    rw [writesOf, List.cons_append, List.cons.injEq] at hleft
    rw [hleft.1]
    exact List.mem_cons_self
  obtain ⟨bytes, -, hbytes⟩ := h.holds hnodup' hmem
  rw [hbytes]
  rfl

/-- In a sequence of calls one writes at most: those before it leave the files as they were, and
those after it leave them as it did. -/
lemma runDecisions_cases (hid : 0x2F ∉ id) (calls : List (Decision × ℕ)) :
    runDecisions rt home id room depth files calls = files ∨
      ∃ before d reach after, calls = before ++ (d, reach) :: after ∧
        runDecisions rt home id room depth files before = files ∧
        runDecisions rt home id room depth files calls =
          (runGateDecision rt home id room depth d reach files).1 := by
  induction calls with
  | nil => exact .inl rfl
  | cons call calls ih =>
      obtain ⟨d, reach⟩ := call
      rcases @runGateDecision_cases rt home id depth room d files reach with hsame |
        ⟨task, routing, gate, result, done, -, -, hne, hdone, hwrote⟩
      · have hcons : ∀ others, runDecisions rt home id room depth files ((d, reach) :: others) =
            runDecisions rt home id room depth files others := by
          intro others
          rw [runDecisions, List.foldl_cons, hsame]
          rfl
        rw [hcons]
        rcases ih with hrest | ⟨before, d', reach', after, hcalls, hbefore, hrest⟩
        · exact .inl hrest
        · refine .inr ⟨(d, reach) :: before, d', reach', after, ?_, ?_, hrest⟩
          · rw [hcalls, List.cons_append]
          · rw [hcons, hbefore]
      · refine .inr ⟨[], d, reach, calls, rfl, rfl, ?_⟩
        rw [runDecisions, List.foldl_cons]
        exact runDecisions_of_present (hwrote.present hid hne hdone)

end

/-! ## What the board reads -/

section
variable {pf : Platform} {instant : Text → Option ℤ} {m : Kanban.Moment} {db : Kanban.Db}
  {card : Kanban.Card} {payload binding : List (Text × Value)} {home id : Text} {room : ℕ}
  {files : Files}

/-- The moment finds these files, below this home. -/
structure Shows (m : Kanban.Moment) (home : Text) (files : Files) : Prop where
  home : m.home = home
  isFile : ∀ path, m.disk.isFile path = (files path).isSome
  readBytes : ∀ path, m.disk.readBytes path = readBytes files path
  readText : ∀ path, m.disk.readText path = readText files path

lemma Shows.tasksFile (h : Shows m home files) (name : Text) :
    m.tasksFile name = GateFiles.tasksFile home name := by
  rw [Kanban.Moment.tasksFile, h.home]
  rfl

lemma Shows.holds_iff (h : Shows m home files) {path : Text} {items : List (Text × Value)} :
    m.Holds pf path items ↔
      readRecord pf.toRuntime m.yamlDepth files path = .ok (.obj items) := by
  rw [Kanban.Moment.Holds, readRecord, bind_eq_ok, h.readText]

lemma validateGate_eq_none : Kanban.validateGate pf instant m db card payload binding = .ok none ↔
    Kanban.checkCloseout pf instant m db payload binding = .ok () := by
  unfold Kanban.validateGate
  split
  next hok => simp [hok]
  next reason hrefused => simp [hrefused]
  next e hraised => simp [hraised]

/-- The routing of an accepted closeout says that its gate was allowed. -/
lemma routing_of_accepted (hshows : Shows m home files)
    (hnamed : getValue "closeout_task_id" binding = .str id)
    (h : Kanban.validateGate pf instant m db card payload binding = .ok none) :
    ∃ routing gate,
      readRecord pf.toRuntime m.yamlDepth files (routingPath home id) = .ok (.obj routing) ∧
      getValue "gate" routing = .obj gate ∧ getValue "status" gate = .str "decided" ∧
      getValue "decision" gate = .str "ALLOW" := by
  obtain ⟨id', path, decision, task, routing, hclosed, -⟩ :=
    Kanban.checkCloseout_eq_ok (validateGate_eq_none.mp h)
  obtain rfl : id' = id := Value.str.inj (hclosed.named.symm.trans hnamed)
  obtain ⟨first, gate, -, hgate, -, hallow, hstatus⟩ := hclosed.settled.gates
  have hfile := hclosed.settled.routingFile
  rw [hshows.tasksFile] at hfile
  exact ⟨routing, gate, hshows.holds_iff.mp hfile, hgate, hstatus, hallow⟩

end

/-! ## Only a complete decision counts -/

section
variable {rt : Runtime} {depth : ℕ} {files files' : Files} {path : Text}

lemma readRecord_of_bytes {bytes : Bytes} (h : files path = some bytes) :
    readRecord rt depth files path = readYamlBytes rt depth bytes := by
  cases hdecode : decodeStrict bytes with
  | some text =>
      simp only [readRecord, readText, readBytes, h, readYamlBytes, bind, Except.bind, hdecode]
      rfl
  | none =>
      simp only [readRecord, readText, readBytes, h, readYamlBytes, bind, Except.bind, hdecode]
      rfl

lemma readRecord_congr (h : files path = files' path) :
    readRecord rt depth files path = readRecord rt depth files' path := by
  rw [readRecord, readRecord, readText, readText, readBytes, readBytes, h]

lemma Wrote.writeAll_eq {room : ℕ} {writes : List (Text × List (Text × Value))}
    (h : Wrote rt room files writes files') : writeAll rt room files writes = (files', .ok ()) := by
  induction h with
  | none files => rfl
  | write hbytes hrest ih =>
      rw [writeAll, hbytes]
      exact ih

end

section
variable {pf : Platform} {instant : Text → Option ℤ} {m : Kanban.Moment} {db : Kanban.Db}
  {card : Kanban.Card} {payload binding : List (Text × Value)} {home id : Text} {room n : ℕ}
  {files files' : Files}

/-- Nothing is decided yet: no routing in the files has a decided gate. -/
def Undecided (rt : Runtime) (home id : Text) (depth : ℕ) (files : Files) : Prop :=
  ∀ routing gate, readRecord rt depth files (routingPath home id) = .ok (.obj routing) →
    getValue "gate" routing = .obj gate → getValue "status" gate ≠ .str "decided"

/-- The record and the routing in the files come back from them. -/
def RecordsFit (rt : Runtime) (home id : Text) (depth n : ℕ) (files : Files) : Prop :=
  ∀ path, path = taskPath home id ∨ path = routingPath home id → ∀ items,
    readRecord rt depth files path = .ok (.obj items) → Fit rt (n + 1) (.obj items)

lemma fit_firstOf {rt : Runtime} {a b : Value} {items : List (Text × Value)}
    (ha : Fit rt n a) (hb : Fit rt n b) (h : firstOf a b = .obj items) :
    Fit rt (n + 1) (.obj items) := by
  unfold firstOf at h
  split at h
  · exact (h ▸ ha).mono (Nat.le_succ n)
  · exact (h ▸ hb).mono (Nat.le_succ n)

/-- What a decision makes of records that fit, fits. -/
lemma Begun.fit {d : Decision} {task routing gate result : List (Text × Value)}
    (h : Begun pf.toRuntime home id m.yamlDepth d files task routing gate result)
    (hplainId : PlainText id) (hpath : PlainText (decisionPath home id)) (hd : d.IsPlain)
    (hfit : RecordsFit pf.toRuntime home id m.yamlDepth n files) :
    ∀ p ∈ writesOf home id d task routing gate result, Fit pf.toRuntime (n + 2) (.obj p.2) := by
  have htask := hfit _ (.inl rfl) task h.readTask
  have hrouting := hfit _ (.inr rfl) routing h.readRouting
  have hgate := fit_firstOf (hrouting.getValue _) (htask.getValue _) h.pending.foundGate
  have hresult := fit_firstOf (hrouting.getValue _) (htask.getValue _) h.pending.foundResult
  simp only [writesOf, List.forall_mem_cons, List.not_mem_nil, false_imp_iff, implies_true,
    and_true]
  exact ⟨(fit_summary hd hplainId hpath hrouting hgate hresult).mono (Nat.le_succ _),
    fit_decidedTask hd hplainId hpath hrouting hgate hresult htask,
    fit_decidedRouting hd hplainId hpath hrouting hgate hresult⟩

/-- What a complete decision wrote is read as it was written. -/
lemma readRecord_of_wrote {d : Decision} {task routing gate result : List (Text × Value)}
    (hid : 0x2F ∉ id) (hdepth : n + 2 ≤ m.yamlDepth)
    (hwrote : Wrote pf.toRuntime room files (writesOf home id d task routing gate result) files')
    {path : Text} {data : List (Text × Value)}
    (hmem : (path, data) ∈ writesOf home id d task routing gate result)
    (hfit : Fit pf.toRuntime (n + 2) (.obj data)) :
    readRecord pf.toRuntime m.yamlDepth files' path = .ok (.obj (settledPairs data)) := by
  obtain ⟨hdt, hdr, htr⟩ := @paths_ne home id hid
  have hnodup : ((writesOf home id d task routing gate result).map Prod.fst).Nodup := by
    simp [writesOf, hdt, hdr, htr]
  obtain ⟨bytes, hbytes, hfile⟩ := hwrote.holds hnodup hmem
  rw [readRecord_of_bytes hfile]
  exact readYamlBytes_of_writeYaml hfit.plain hfit.keyed (hfit.depth.trans hdepth) hbytes

/-- The writes that reached the routing are all. -/
lemma prefix_eq_of_mem {d : Decision} {task routing gate result : List (Text × Value)}
    {done : List (Text × List (Text × Value))} (hid : 0x2F ∉ id)
    (hdone : done <+: writesOf home id d task routing gate result)
    (hmem : routingPath home id ∈ done.map Prod.fst) :
    done = writesOf home id d task routing gate result := by
  obtain ⟨left, hleft⟩ := hdone
  obtain ⟨-, hdr, htr⟩ := @paths_ne home id hid
  rcases done with _ | ⟨p, _ | ⟨q, _ | ⟨r, rest⟩⟩⟩
  · simp at hmem
  · simp only [writesOf, List.cons_append, List.cons.injEq] at hleft
    simp [hleft.1, Ne.symm hdr] at hmem
  · simp only [writesOf, List.cons_append, List.cons.injEq] at hleft
    simp [hleft.1, hleft.2.1, Ne.symm hdr, Ne.symm htr] at hmem
  · have hlength := congrArg List.length hleft
    simp only [writesOf, List.length_append, List.length_cons, List.length_nil] at hlength
    have hnil : left = [] := List.length_eq_zero_iff.mp (by omega)
    rw [← hleft, hnil, List.append_nil]

end

end GateFiles

end AgentOrch
