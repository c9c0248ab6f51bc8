import AgentOrch.Construction.Kanban.Gate
import AgentOrch.Properties.CardReadback

/-!
# One closeout for one completion

A completion is on record with the binding it was accepted for.  Where the approval of its card asks
for a gate, the files of the closeout agreed with each other and with the binding at that moment, and
no earlier completion named the closeout.  A card without a gate may name any closeout task: there the
journal is not asked.
-/

namespace AgentOrch

open Py Json

namespace Kanban

/-! ## What a completion carries -/

/-- The closeout task of a completion on record, read without a limit on the nesting. -/
def carriedCloseout (e : Event) : Option Value :=
  match e.metadataDelta with
  | .text t =>
    match Json.loads ⟨t.length, false⟩ t with
    | .ok (.obj delta) =>
      match getValue "binding" delta with
      | .obj binding => some (getValue "closeout_task_id" binding)
      | _ => none
    | _ => none
  | _ => none

/-- The later completion carries the closeout task of the earlier one. -/
def sameCloseout (e later : Event) : Bool :=
  match carriedCloseout e, carriedCloseout later with
  | some v, some w => w.eqv v
  | _, _ => false

/-- No two accepted completions carry one closeout task. -/
def CloseoutsApart (events : List Event) : Prop :=
  (events.filter isAcceptedDone).Pairwise fun e later => sameCloseout e later = false

instance (events : List Event) : Decidable (CloseoutsApart events) :=
  inferInstanceAs (Decidable (List.Pairwise _ _))

/-! ## The files of a closeout -/

section
variable (pf : Platform) (instant : Text → Option ℤ)

/-- Both have one canonical text. -/
def Agree (a b : List (Text × Value)) : Prop :=
  ∃ bytes, canonicalJson pf.toRuntime (.obj a) = .ok bytes ∧
    canonicalJson pf.toRuntime (.obj b) = .ok bytes

/-- The file holds the record. -/
def Moment.Holds (m : Moment) (path : Text) (items : List (Text × Value)) : Prop :=
  ∃ text, m.disk.readText path = .ok text ∧
    Yaml.readYaml pf.toRuntime m.yamlDepth text = .ok (.obj items)

/-- The decision allows the closeout of the task, and stands where its decision is due. -/
structure Allows (m : Moment) (id path : Text) (decision : List (Text × Value)) : Prop where
  file : m.Holds pf path decision
  place : ∃ resolved, m.disk.resolve path = .ok resolved ∧
    m.disk.resolve (m.tasksFile (id ++ ("-gate-decision.yaml" : Text))) = .ok resolved
  type : getValue "type" decision = .str "stop_gate_decision"
  task : getValue "task_id" decision = .str id
  allow : getValue "decision" decision = .str "ALLOW"

/-- The record and the routing of the task agree on its gate, its decision and its result. -/
structure Settled (m : Moment) (id : Text) (decision task routing : List (Text × Value)) :
    Prop where
  taskFile : m.Holds pf (m.tasksFile (id ++ (".yaml" : Text))) task
  routingFile : m.Holds pf (m.tasksFile (id ++ ("-routing.yaml" : Text))) routing
  taskId : getValue "task_id" task = .str id
  routingId : getValue "task_id" routing = .str id
  gates : ∃ first gate, getValue "gate" task = .obj first ∧ getValue "gate" routing = .obj gate ∧
    Agree pf first gate ∧ getValue "decision" gate = .str "ALLOW" ∧
    getValue "status" gate = .str "decided"
  decisions : ∃ first recorded, getValue "gate_decision" task = .obj first ∧
    getValue "gate_decision" routing = .obj recorded ∧ Agree pf first recorded ∧
    Agree pf recorded decision
  results : ∃ first result, getValue "execution_result" task = .obj first ∧
    getValue "execution_result" routing = .obj result ∧ Agree pf first result

/-- The closeout the binding names is decided: the files agree, the decision is later than the
terminal result and the last seal, and the input of the review carries the binding. -/
structure ClosedOut (m : Moment) (binding : List (Text × Value)) (id path : Text)
    (decision task routing : List (Text × Value)) : Prop where
  named : getValue "closeout_task_id" binding = .str id
  allows : Allows pf m id path decision
  settled : Settled pf m id decision task routing
  decided : ∃ time terminal seal_, parseTime instant (getValue "decided_at" decision) = some time ∧
    parseTime instant (getValue "terminal_done_at" binding) = some terminal ∧
    parseTime instant (getValue "last_seal_at" binding) = some seal_ ∧
    terminal < time ∧ seal_ < time
  carried : ∃ text summary,
    m.disk.readText (m.tasksFile (id ++ ("-gate-review-input.md" : Text))) = .ok text ∧
    embeddedTaskSummary pf.toRuntime text = .ok (some summary) ∧
    contains (renderCloseoutBinding pf.toRuntime binding) summary = true

end

/-! ## The checks -/

section
variable {pf : Platform} {instant : Text → Option ℤ} {m : Moment} {db db' : Db} {cmd : Command}
  {out : Outcome} {env : Environment} {payload binding decision task routing : List (Text × Value)}
  {id path reason : Text}

lemma eq_str_of_eqv {v : Value} {t : Text} (h : v.eqv (.str t) = true) : v = .str t := by
  cases v with
  | str s => simpa [Value.eqv] using h
  | _ => simp [Value.eqv] at h

lemma eqv_str_comm (t : Text) (v : Value) : (Value.str t).eqv v = v.eqv (.str t) := by
  cases v with
  | str s => simp [Value.eqv, Bool.beq_comm]
  | _ => rfl

lemma dictOr_eq_ok {v : Value} {items : List (Text × Value)} (h : dictOr reason v = .ok items) :
    v = .obj items := by
  cases v with
  | obj found =>
      obtain rfl := Except.ok.inj h
      rfl
  | _ => cases h

lemma refuseUnlessSame_eq_ok {a b : List (Text × Value)} {u : Unit}
    (h : refuseUnlessSame pf a b reason = .ok u) : Agree pf a b := by
  simp only [refuseUnlessSame, stop_bind_eq_ok, raising_eq_ok, refuseUnless_eq_ok,
    decide_eq_true_eq] at h
  obtain ⟨first, hfirst, second, hsecond, rfl⟩ := h
  exact ⟨first, hfirst, hsecond⟩

lemma readYamlFile_eq_ok {v : Value} (h : readYamlFile pf m reason path = .ok v) :
    ∃ text, m.disk.readText path = .ok text ∧
      Yaml.readYaml pf.toRuntime m.yamlDepth text = .ok v := by
  unfold readYamlFile at h
  dsimp only at h
  split at h
  next parsed hparsed =>
    obtain rfl := Except.ok.inj h
    exact bind_eq_ok.mp hparsed
  · cases h
  · split at h <;> cases h

lemma checkDecision_eq_ok (h : checkDecision pf m payload = .ok (path, id, decision)) :
    Allows pf m id path decision := by
  unfold checkDecision at h
  split at h
  next found _ =>
    simp only [stop_bind_eq_ok, refuseUnless_eq_ok, raising_eq_ok] at h
    obtain ⟨-, -, -, -, -, -, bytes, -, -, -, v, hv, items, hitems, -, htype, h⟩ := h
    split at h
    next task htask =>
      simp only [stop_bind_eq_ok, refuseUnless_eq_ok, raising_eq_ok, decide_eq_true_eq] at h
      obtain ⟨-, -, first, hfirst, second, hsecond, -, rfl, -, hallow, h⟩ := h
      simp only [pure, Except.pure, Except.ok.injEq, Prod.mk.injEq] at h
      obtain ⟨rfl, rfl, rfl⟩ := h
      obtain ⟨text, hread, hyaml⟩ := readYamlFile_eq_ok hv
      obtain rfl := dictOr_eq_ok hitems
      exact ⟨⟨text, hread, hyaml⟩, ⟨first, hfirst, hsecond⟩, eq_str_of_eqv htype, htask,
        eq_str_of_eqv hallow⟩
    · cases h
  · cases h

lemma readRecords_eq_ok (h : readRecords pf m id = .ok (task, routing)) :
    m.Holds pf (m.tasksFile (id ++ (".yaml" : Text))) task ∧
      m.Holds pf (m.tasksFile (id ++ ("-routing.yaml" : Text))) routing ∧
      getValue "task_id" task = .str id ∧ getValue "task_id" routing = .str id := by
  simp only [readRecords, stop_bind_eq_ok, refuseUnless_eq_ok, Bool.and_eq_true] at h
  obtain ⟨-, -, first, hfirst, second, hsecond, items, hitems, items', hitems', -, ⟨htask, hrouting⟩,
    h⟩ := h
  simp only [pure, Except.pure, Except.ok.injEq, Prod.mk.injEq] at h
  obtain ⟨rfl, rfl⟩ := h
  obtain rfl := dictOr_eq_ok hitems
  obtain rfl := dictOr_eq_ok hitems'
  exact ⟨readYamlFile_eq_ok hfirst, readYamlFile_eq_ok hsecond, eq_str_of_eqv htask,
    eq_str_of_eqv hrouting⟩

lemma checkGate_eq_ok {gate : List (Text × Value)} (h : checkGate pf task routing = .ok gate) :
    ∃ first, getValue "gate" task = .obj first ∧ getValue "gate" routing = .obj gate ∧
      Agree pf first gate ∧ getValue "decision" gate = .str "ALLOW" ∧
      getValue "status" gate = .str "decided" := by
  simp only [checkGate, stop_bind_eq_ok, refuseUnless_eq_ok, Bool.and_eq_true] at h
  obtain ⟨-, -, first, hfirst, second, hsecond, _, hsame, -, -, -, hstatus, -, ⟨⟨hallow, -⟩, -⟩, h⟩ :=
    h
  obtain rfl := Except.ok.inj h
  exact ⟨first, dictOr_eq_ok hfirst, dictOr_eq_ok hsecond, refuseUnlessSame_eq_ok hsame,
    eq_str_of_eqv hallow, eq_str_of_eqv hstatus⟩

lemma checkRecordedDecision_eq_ok {u : Unit}
    (h : checkRecordedDecision pf m path decision task routing = .ok u) :
    ∃ first recorded, getValue "gate_decision" task = .obj first ∧
      getValue "gate_decision" routing = .obj recorded ∧ Agree pf first recorded ∧
      Agree pf recorded decision := by
  simp only [checkRecordedDecision, stop_bind_eq_ok] at h
  obtain ⟨first, hfirst, recorded, hrecorded, _, hsame, _, hdecision, -⟩ := h
  exact ⟨first, recorded, dictOr_eq_ok hfirst, dictOr_eq_ok hrecorded,
    refuseUnlessSame_eq_ok hsame, refuseUnlessSame_eq_ok hdecision⟩

lemma checkExecution_eq_ok {gate : List (Text × Value)} {u : Unit}
    (h : checkExecution pf gate decision task routing = .ok u) :
    ∃ first result, getValue "execution_result" task = .obj first ∧
      getValue "execution_result" routing = .obj result ∧ Agree pf first result := by
  simp only [checkExecution, stop_bind_eq_ok] at h
  obtain ⟨first, hfirst, result, hresult, _, hsame, -⟩ := h
  exact ⟨first, result, dictOr_eq_ok hfirst, dictOr_eq_ok hresult, refuseUnlessSame_eq_ok hsame⟩

lemma checkReviewInput_eq_ok {u : Unit} (h : checkReviewInput pf m id binding = .ok u) :
    ∃ text summary,
      m.disk.readText (m.tasksFile (id ++ ("-gate-review-input.md" : Text))) = .ok text ∧
      embeddedTaskSummary pf.toRuntime text = .ok (some summary) ∧
      contains (renderCloseoutBinding pf.toRuntime binding) summary = true := by
  simp only [checkReviewInput, stop_bind_eq_ok, raising_eq_ok] at h
  obtain ⟨-, -, text, htext, found, hfound, h⟩ := h
  split at h
  · cases h
  next summary =>
    exact ⟨text, summary, htext, hfound, refuseUnless_eq_ok.mp h⟩

lemma checkTimes_eq_ok {u : Unit} (h : checkTimes instant decision binding = .ok u) :
    ∃ time terminal seal_, parseTime instant (getValue "decided_at" decision) = some time ∧
      parseTime instant (getValue "terminal_done_at" binding) = some terminal ∧
      parseTime instant (getValue "last_seal_at" binding) = some seal_ ∧
      terminal < time ∧ seal_ < time := by
  unfold checkTimes at h
  split at h
  next time terminal seal_ htime hterminal hseal =>
    rw [refuseUnless_eq_ok, Bool.and_eq_true, decide_eq_true_eq, decide_eq_true_eq] at h
    exact ⟨time, terminal, seal_, htime, hterminal, hseal, h.1, h.2⟩
  · cases h

/-- What `_validate_gate` lets pass is closed out, and no completion on record is found to name the
closeout. -/
lemma checkCloseout_eq_ok {u : Unit} (h : checkCloseout pf instant m db payload binding = .ok u) :
    ∃ id path decision task routing, ClosedOut pf instant m binding id path decision task routing ∧
      closeoutAlreadyUsed pf.toRuntime id db.events = .ok false := by
  simp only [checkCloseout, stop_bind_eq_ok, raising_eq_ok, refuseUnless_eq_ok] at h
  obtain ⟨⟨path, id, decision⟩, hdecision, ⟨task, routing⟩, hrecords, gate, hgate, _, hrecorded, _,
    hexecution, _, hinput, _, htimes, -, hnamed, -, -, used, hused, hunused⟩ := h
  obtain ⟨htask, hrouting, htaskId, hroutingId⟩ := readRecords_eq_ok hrecords
  obtain ⟨first, hgates⟩ := checkGate_eq_ok hgate
  have hsettled : Settled pf m id decision task routing :=
    ⟨htask, hrouting, htaskId, hroutingId, ⟨first, gate, hgates⟩,
      checkRecordedDecision_eq_ok hrecorded, checkExecution_eq_ok hexecution⟩
  refine ⟨id, path, decision, task, routing, ⟨eq_str_of_eqv hnamed, checkDecision_eq_ok hdecision,
    hsettled, checkTimes_eq_ok htimes, checkReviewInput_eq_ok hinput⟩, ?_⟩
  rw [hused]
  simpa using hunused

/-- What `_validate_done` lets pass names its binding, and passed the gate its approval asks for. -/
lemma validateDone_eq_ok {card : Card} (h : validateDone pf env db card payload = .ok binding) :
    getValue "binding" payload = .obj binding ∧
      ∃ approval, approvalPayload pf.toRuntime db card = .ok (some approval) ∧
        ((getValue "gate_required" approval).truthy = false ∨
          env.gate db card payload binding = .ok none) := by
  unfold validateDone at h
  split at h
  next found hfound =>
    simp only [stop_bind_eq_ok, refuseUnless_eq_ok] at h
    obtain ⟨-, -, -, -, -, -, -, -, -, -, -, -, -, -, -, -, -, -, -, -, -, -, h⟩ := h
    split at h
    next remaining _ =>
      simp only [stop_bind_eq_ok, refuseUnless_eq_ok, raising_eq_ok] at h
      obtain ⟨-, -, found', happroval, h⟩ := h
      split at h
      · cases h
      next approval =>
        split at h
        next hrequired =>
          obtain rfl := Except.ok.inj h
          exact ⟨hfound, approval, happroval, .inl (by simpa using hrequired)⟩
        · simp only [stop_bind_eq_ok, raising_eq_ok] at h
          obtain ⟨answer, hanswer, h⟩ := h
          split at h
          · cases h
          · obtain rfl := Except.ok.inj h
            exact ⟨hfound, approval, happroval, .inr hanswer⟩
    · cases h
  · cases h

/-! ## The event of a completion -/

/-- What `_done` adds to its event. -/
def doneDelta (payload binding : List (Text × Value)) : List (Text × Value) :=
  [("manual_state", .str "done"), ("binding", .obj binding),
    ("gate_decision_path", getValue "gate_decision_path" payload),
    ("gate_decision_hash", getValue "gate_decision_hash" payload),
    ("deployed", .bool false)]

/-- What the event says of its completion was written so that it reads back. -/
def ReadsAsWritten (pf : Platform) (e : Event) : Prop :=
  ∃ delta t, e.metadataDelta = .text t ∧ jsonText pf.toRuntime (.obj delta) = .ok t ∧
    (Value.obj delta).wellKeyed = true ∧ ∀ x ∈ (Value.obj delta).floats, ReadsBack pf.floatRepr x

lemma pad_isSpace : ((" " : Text).all isJsonSpace) = true := by decide

/-- A completion on record carries the closeout task of the binding that was written. -/
lemma carriedCloseout_eq {e : Event} {delta : List (Text × Value)} {t : Text}
    (he : e.metadataDelta = .text t) (ht : jsonText pf.toRuntime (.obj delta) = .ok t)
    (hkeyed : (Value.obj delta).wellKeyed = true)
    (hfloats : ∀ x ∈ (Value.obj delta).floats, ReadsBack pf.floatRepr x)
    (hbinding : getValue "binding" delta = .obj binding) :
    carriedCloseout e = some (getValue "closeout_task_id" binding).sortKeys := by
  have hread := loads_dumpsPadded_length pad_isSpace hfloats hkeyed (dumpsPadded_of_jsonText ht)
  have hnodup : (dictKeys delta).Nodup := nodup_of_wellKeyed hkeyed
  have hnodup' : (dictKeys binding).Nodup :=
    nodup_of_wellKeyed (wellKeyed_getValue hkeyed hbinding)
  have hsorted : getValue "binding" (sortedItems delta) = .obj (sortedItems binding) := by
    rw [getValue_sortedItems hnodup, hbinding, sortKeys_obj]
  simp only [carriedCloseout, he, hread, sortKeys_obj, hsorted, getValue_sortedItems hnodup']

/-- What the check of a closeout reads of a completion on record, it reads without a limit too. -/
lemma loads_of_loadsDelta {e : Event} {t : Text} {result : Except Exc Value} (h : ReadsAsWritten pf e)
    (he : e.metadataDelta = .text t) (hresult : loadsDelta pf.toRuntime e = result) :
    result = .error .recursionError ∨
      ∃ v, result = .ok v ∧ Json.loads ⟨t.length, false⟩ t = .ok v := by
  obtain ⟨delta, s, hs, ht, hkeyed, hfloats⟩ := h
  obtain rfl := Cell.text.inj (he.symm.trans hs)
  have hwritten := dumpsPadded_of_jsonText ht
  have hread := loads_dumpsPadded_length pad_isSpace hfloats hkeyed hwritten
  have hdelta : loadsDelta pf.toRuntime e = pf.loads false t := by
    unfold loadsDelta
    rw [he]
    cases t with
    | nil => cases hread
    | cons c rest =>
        rw [if_neg (by simp)]
        rfl
  rw [hdelta, Runtime.loads, loads_dumpsPadded _ pad_isSpace hfloats hkeyed hwritten] at hresult
  by_cases hdepth : (Value.obj delta).depth ≤ pf.loadsDepth
  · rw [if_pos hdepth] at hresult
    exact .inr ⟨_, hresult.symm, hread⟩
  · rw [if_neg hdepth] at hresult
    exact .inl hresult.symm

/-- A closeout task that is found unused is not that of the first event, nor of a later one. -/
lemma closeoutAlreadyUsed_cons {rt : Runtime} {e : Event} {rest : List Event}
    (h : closeoutAlreadyUsed rt id (e :: rest) = .ok false) :
    closeoutAlreadyUsed rt id rest = .ok false ∧ (isAcceptedDone e = true →
      (∃ text, loadsDelta rt e = .error (.jsonDecodeError text)) ∨
        ∃ delta, loadsDelta rt e = .ok (.obj delta) ∧ ∀ binding,
          getValue "binding" delta = .obj binding →
            (getValue "closeout_task_id" binding).eqv (.str id) = false) := by
  unfold closeoutAlreadyUsed at h
  split at h
  next hdone => exact ⟨h, fun htrue => by simp [htrue] at hdone⟩
  · split at h
    next delta hdelta =>
      split at h
      next binding hbinding =>
        split at h
        · cases h
        next hother =>
          refine ⟨h, fun _ => .inr ⟨delta, hdelta, fun found hfound => ?_⟩⟩
          rw [hbinding] at hfound
          obtain rfl := Value.obj.inj hfound
          simpa using hother
      next hnone =>
        exact ⟨h, fun _ => .inr ⟨delta, hdelta, fun found hfound => absurd hfound (hnone found)⟩⟩
    · cases h
    next text htext => exact ⟨h, fun _ => .inl ⟨text, htext⟩⟩
    · cases h

/-- No completion on record carries a closeout task that is found unused. -/
lemma not_carried_of_unused {events : List Event}
    (hrecords : ∀ e ∈ events, isAcceptedDone e = true → ReadsAsWritten pf e)
    (h : closeoutAlreadyUsed pf.toRuntime id events = .ok false) {e : Event} (he : e ∈ events)
    (hdone : isAcceptedDone e = true) {v : Value} (hv : carriedCloseout e = some v) :
    v.eqv (.str id) = false := by
  induction events with
  | nil => cases he
  | cons first rest ih =>
      obtain ⟨hrest, hfirst⟩ := closeoutAlreadyUsed_cons h
      rcases List.mem_cons.mp he with rfl | hmem
      · unfold carriedCloseout at hv
        split at hv
        next t ht =>
          have hread := loads_of_loadsDelta (hrecords e List.mem_cons_self hdone) ht rfl
          rcases hfirst hdone with ⟨text, htext⟩ | ⟨delta, hdelta, hother⟩
          · rw [htext] at hread
            rcases hread with hcontra | ⟨w, hw, -⟩
            · cases hcontra
            · cases hw
          · rw [hdelta] at hread
            rcases hread with hcontra | ⟨w, hw, hloads⟩
            · cases hcontra
            · obtain rfl := Except.ok.inj hw
              rw [hloads] at hv
              dsimp only at hv
              split at hv
              next binding hbinding =>
                obtain rfl := Option.some.inj hv
                exact hother binding hbinding
              · cases hv
        · cases hv
      · exact ih (fun e he => hrecords e (List.mem_cons_of_mem first he)) hrest hmem

/-! ## A completion is accepted -/

/-- A command that is executed inserts an event that is no completion, or it is a completion that
passed its checks. -/
lemma dispatch_done (h : dispatch pf env db cmd = .ok (out, db')) :
    (∃ event, db'.events = db.events ++ [event] ∧ isAcceptedDone event = false ∧
        (cmd.verb = .done → out.result = .rejected)) ∨
      cmd.verb = .done ∧ ∃ card binding payload delta,
        db.card (getValue "card_id" cmd.payload) = some card ∧
        guardCard (some card) cmd.payload false false = .ok card ∧
        validateDone pf env db card cmd.payload = .ok binding ∧
        jsonText pf.toRuntime (.obj (doneDelta cmd.payload binding)) = .ok delta ∧
        db'.events = db.events ++
          [acceptedEvent env.clock cmd card.cardId (card.revision + 1) payload delta] := by
  by_cases hverb : cmd.verb = .done
  · have hfinish : finishCard pf env db cmd = .ok (out, db') := by
      unfold dispatch at h
      rw [hverb] at h
      exact h
    rcases mutate_eq_ok hfinish with ⟨reason, hreject⟩ | ⟨card, change, delta, hcard, hguard, hbody,
      -, -, hdelta, rfl, -⟩
    · left
      simp only [reject, bind_eq_ok] at hreject
      obtain ⟨recorded, -, hreject⟩ := hreject
      simp only [pure, Except.pure, Except.ok.injEq, Prod.mk.injEq] at hreject
      obtain ⟨rfl, rfl⟩ := hreject
      exact ⟨_, rfl, by simp [isAcceptedDone], fun _ => rfl⟩
    · right
      simp only [stop_bind_eq_ok] at hbody
      obtain ⟨binding, hbinding, payload, -, hchange⟩ := hbody
      simp only [pure, Except.pure, Except.ok.injEq] at hchange
      subst hchange
      exact ⟨hverb, card, binding, payload, delta, hcard, hguard, hbinding, hdelta, rfl⟩
  · obtain ⟨event, heffect, -⟩ := dispatch_effect h
    have hkind : event.kind ≠ "done" := fun heq =>
      hverb (name_injective (heffect.kind_eq.symm.trans heq))
    exact .inl ⟨event, heffect.events_eq, by simp [isAcceptedDone, hkind],
      fun hdone => absurd hdone hverb⟩

end

/-! ## Runs -/

/-- One request, and the moment it is served at. -/
structure Turn where
  moment : Moment
  request : Request

section
variable (pf : Platform) (instant : Text → Option ℤ)

def Turn.call (turn : Turn) : Call := ⟨turn.moment.environment pf instant, turn.request⟩

/-- The tables after a sequence of requests, each of them served at its moment. -/
def play (tasks : List TaskRow) (turns : List Turn) : Db :=
  run pf (Db.fresh tasks) (turns.map (Turn.call pf instant))

/-- The approval of the card froze `gate_required`. -/
def AsksForGate (rt : Runtime) (db : Db) (card : Card) : Prop :=
  ∃ e ∈ db.events, some e.operationId = card.approvalEventId ∧ e.kind = "approve" ∧
    e.result = .accepted ∧ ∃ frozen, e.payload.loads rt = .ok (.obj frozen) ∧
      (getValue "gate_required" frozen).truthy = true

/-- A new completion of a card whose approval asks for no gate names a closeout task that no
completion on record carries. -/
def NamesNewCloseout (db : Db) (request : Request) : Prop :=
  ∀ cmd card binding, readRequest pf request = .ok cmd → cmd.verb = .done →
    cmd.operationId ∉ db.events.map Event.operationId →
    db.card (getValue "card_id" cmd.payload) = some card →
    guardCard (some card) cmd.payload false false = .ok card → ¬AsksForGate pf.toRuntime db card →
    getValue "binding" cmd.payload = .obj binding →
    ∀ e ∈ db.events, isAcceptedDone e = true → ∀ v, carriedCloseout e = some v →
      (getValue "closeout_task_id" binding).eqv v = false

/-- A completion is accepted, of a card whose approval asks for a gate, only when its closeout is
closed out at that moment. -/
def GatedCloseout (db : Db) (turn : Turn) : Prop :=
  ∀ cmd card out db', readRequest pf turn.request = .ok cmd → cmd.verb = .done →
    handleRequest pf (turn.moment.environment pf instant) db turn.request = .ok (out, db') →
    out.result = .accepted → out.replayed = false →
    db.card (getValue "card_id" cmd.payload) = some card → AsksForGate pf.toRuntime db card →
    ∃ binding id path decision task routing, getValue "binding" cmd.payload = .obj binding ∧
      ClosedOut pf instant turn.moment binding id path decision task routing

end

section
variable {pf : Platform} {instant : Text → Option ℤ} {db : Db} {turn : Turn}

/-- The approval the handler finds is the one the card names. -/
lemma asksForGate_iff {card : Card} {approval : List (Text × Value)}
    (hnodup : (db.events.map Event.operationId).Nodup)
    (happroval : approvalPayload pf.toRuntime db card = .ok (some approval)) :
    AsksForGate pf.toRuntime db card ↔ (getValue "gate_required" approval).truthy = true := by
  unfold approvalPayload at happroval
  dsimp only at happroval
  split at happroval
  · cases happroval
  next found hfound =>
    have hmem := List.mem_of_find?_eq_some hfound
    have hmatch := List.find?_some hfound
    simp only [Bool.and_eq_true, decide_eq_true_eq] at hmatch
    obtain ⟨⟨hid, hkind⟩, hresult⟩ := hmatch
    split at happroval
    · cases happroval
    · split at happroval
      next items hitems =>
        obtain rfl := Option.some.inj (Except.ok.inj happroval)
        constructor
        · rintro ⟨e, he, heid, -, -, frozen, hfrozen, hrequired⟩
          have hsame : e = found := List.inj_on_of_nodup_map hnodup he hmem
            (Option.some.inj (heid.trans hid.symm))
          rw [hsame, hitems] at hfrozen
          obtain rfl := Value.obj.inj (Except.ok.inj hfrozen)
          exact hrequired
        · intro hrequired
          exact ⟨found, hmem, hid, hkind, hresult, items, hitems, hrequired⟩
      all_goals cases happroval

/-- A card with a gate is completed only after its closeout. -/
lemma gatedCloseout (hnodup : (db.events.map Event.operationId).Nodup) :
    GatedCloseout pf instant db turn := by
  intro cmd card out db' hread hverb h haccepted hreplayed hcard hasks
  obtain ⟨cmd', hread', hexecute⟩ := bind_eq_ok.mp h
  rw [hread] at hread'
  obtain rfl := Except.ok.inj hread'
  unfold execute at hexecute
  split at hexecute
  next existing _ =>
    obtain ⟨rfl, -⟩ := Prod.mk.inj (Except.ok.inj hexecute)
    by_cases hhash : existing.payloadHash = .text cmd.digest
    · simp [replay, hhash] at hreplayed
    · simp [replay, hhash] at haccepted
  · rcases dispatch_done hexecute with ⟨-, -, -, hrejected⟩ | ⟨-, found, binding, payload, delta,
      hfound, -, hvalid, -⟩
    · rw [hrejected hverb] at haccepted
      cases haccepted
    · rw [hcard] at hfound
      obtain rfl := Option.some.inj hfound
      obtain ⟨hbinding, approval, happroval, hgate⟩ := validateDone_eq_ok hvalid
      have hrequired := (asksForGate_iff hnodup happroval).mp hasks
      rcases hgate with hnone | hgate
      · rw [hrequired] at hnone
        cases hnone
      · have hvalidate : validateGate pf instant turn.moment db card cmd.payload binding =
            .ok none := hgate
        unfold validateGate at hvalidate
        split at hvalidate
        next hclosed =>
          obtain ⟨id, path, decision, task, routing, hout, -⟩ := checkCloseout_eq_ok hclosed
          exact ⟨binding, id, path, decision, task, routing, hbinding, hout⟩
        · cases hvalidate
        · cases hvalidate

/-! ### What a step keeps -/

/-- The completions on record read back, and carry different closeout tasks. -/
structure Closed (pf : Platform) (db : Db) : Prop where
  records : ∀ e ∈ db.events, isAcceptedDone e = true → ReadsAsWritten pf e
  apart : CloseoutsApart db.events

lemma floats_getValue {items : List (Text × Value)} {key : Text} {x : Binary64}
    (hx : x ∈ (getValue key items).floats) : x ∈ (Value.obj items).floats := by
  unfold getValue at hx
  cases hget : dictGet key items with
  | none =>
      rw [hget] at hx
      cases hx
  | some v =>
      rw [hget] at hx
      exact mem_floatsPairs.mpr ⟨(key, v), mem_of_dictGet hget, hx⟩

/-- What is written of a completion reads back. -/
lemma doneDelta_keyed {payload binding : List (Text × Value)}
    (hkeyed : (Value.obj payload).wellKeyed = true)
    (hbinding : getValue "binding" payload = .obj binding) :
    (Value.obj (doneDelta payload binding)).wellKeyed = true := by
  have hkeys : (["manual_state", "binding", "gate_decision_path", "gate_decision_hash",
      "deployed"] : List Text).Nodup := by
    decide
  simp only [Value.wellKeyed, Bool.and_eq_true, decide_eq_true_eq]
  refine ⟨hkeys, wellKeyedPairs_iff.mpr ?_⟩
  intro p hp
  simp only [doneDelta, List.mem_cons, List.not_mem_nil, or_false] at hp
  rcases hp with rfl | rfl | rfl | rfl | rfl
  · rfl
  · exact wellKeyed_getValue hkeyed hbinding
  · exact wellKeyed_getValue hkeyed rfl
  · exact wellKeyed_getValue hkeyed rfl
  · rfl

lemma doneDelta_floats {payload binding : List (Text × Value)} {x : Binary64}
    (hbinding : getValue "binding" payload = .obj binding)
    (hx : x ∈ (Value.obj (doneDelta payload binding)).floats) : x ∈ (Value.obj payload).floats := by
  obtain ⟨p, hp, hx⟩ := mem_floatsPairs.mp hx
  simp only [doneDelta, List.mem_cons, List.not_mem_nil, or_false] at hp
  rcases hp with rfl | rfl | rfl | rfl | rfl
  · cases hx
  · exact floats_getValue (hbinding ▸ hx)
  · exact floats_getValue hx
  · exact floats_getValue hx
  · cases hx

/-- One more event that is no completion changes nothing. -/
lemma Closed.of_other {db' : Db} {event : Event} (h : Closed pf db)
    (hevents : db'.events = db.events ++ [event]) (hother : isAcceptedDone event = false) :
    Closed pf db' := by
  constructor
  · intro e he hdone
    rw [hevents] at he
    rcases List.mem_append.mp he with he | he
    · exact h.records e he hdone
    · obtain rfl := List.mem_singleton.mp he
      rw [hother] at hdone
      cases hdone
  · have hfilter : db'.events.filter isAcceptedDone = db.events.filter isAcceptedDone := by
      simp [hevents, hother]
    unfold CloseoutsApart
    rw [hfilter]
    exact h.apart

/-- One more completion, of a closeout task that no completion on record carries. -/
lemma Closed.of_done {db' : Db} {event : Event} {binding : List (Text × Value)}
    (h : Closed pf db) (hevents : db'.events = db.events ++ [event]) (hrecords : ReadsAsWritten pf event)
    (hcarried : carriedCloseout event = some (getValue "closeout_task_id" binding).sortKeys)
    (hnew : ∀ e ∈ db.events, isAcceptedDone e = true → ∀ v, carriedCloseout e = some v →
      (getValue "closeout_task_id" binding).eqv v = false) : Closed pf db' := by
  constructor
  · intro e he hdone
    rw [hevents] at he
    rcases List.mem_append.mp he with he | he
    · exact h.records e he hdone
    · obtain rfl := List.mem_singleton.mp he
      exact hrecords
  · unfold CloseoutsApart
    rw [hevents, List.filter_append]
    refine List.pairwise_append.mpr ⟨h.apart, ?_, ?_⟩
    · exact (List.pairwise_singleton _ event).filter _
    · intro e he later hlater
      obtain ⟨he, hdone⟩ := List.mem_filter.mp he
      obtain rfl := List.mem_singleton.mp (List.mem_filter.mp hlater).1
      unfold sameCloseout
      rw [hcarried]
      cases hv : carriedCloseout e with
      | none => rfl
      | some v =>
          show (getValue "closeout_task_id" binding).sortKeys.eqv v = false
          rw [eqv_sortKeys]
          exact hnew e he hdone v hv

/-- A request that names new closeouts keeps them apart. -/
lemma Closed.serve (h : Closed pf db) (hnodup : (db.events.map Event.operationId).Nodup)
    (hfloats : ∀ x ∈ (Value.obj turn.request.items).floats, ReadsBack pf.floatRepr x)
    (hnew : NamesNewCloseout pf db turn.request) :
    Closed pf (serve pf db (turn.call pf instant)) := by
  unfold Kanban.serve
  split
  next out after hafter =>
    obtain ⟨cmd, hread, hexecute⟩ := bind_eq_ok.mp hafter
    have hexecute : execute pf (turn.moment.environment pf instant) db cmd = .ok (out, after) :=
      hexecute
    rcases execute_cases hexecute with ⟨-, -, -, -, rfl⟩ | ⟨hfresh, -⟩
    · exact h
    · have hnone : db.events.find? (fun e => e.operationId = cmd.operationId) = none := by
        refine List.find?_eq_none.mpr fun e he => ?_
        simpa using fun heq => hfresh (List.mem_map.mpr ⟨e, he, heq⟩)
      rw [execute, hnone] at hexecute
      rcases dispatch_done hexecute with ⟨event, hevents, hother, -⟩ | ⟨hverb, card, binding,
        payload, delta, hcard, hguard, hvalid, hdelta, hevents⟩
      · exact h.of_other hevents hother
      · obtain ⟨hbinding, approval, happroval, hgate⟩ := validateDone_eq_ok hvalid
        have hcmd : IsCommand pf cmd := ⟨turn.request, hread⟩
        have hkeyed := doneDelta_keyed hcmd.wellShaped.keyed hbinding
        have hread' : ∀ x ∈ (Value.obj (doneDelta cmd.payload binding)).floats,
            ReadsBack pf.floatRepr x := fun x hx =>
          hfloats x (floats_getValue
            ((readFrom_of_readRequest hread).payload ▸ doneDelta_floats hbinding hx))
        refine h.of_done hevents ⟨_, delta, rfl, hdelta, hkeyed, hread'⟩
          (carriedCloseout_eq rfl hdelta hkeyed hread' rfl) ?_
        by_cases hasks : AsksForGate pf.toRuntime db card
        · rcases hgate with hnone | hgate
          · rw [(asksForGate_iff hnodup happroval).mp hasks] at hnone
            cases hnone
          · have hvalidate : validateGate pf instant turn.moment db card cmd.payload binding =
                .ok none := hgate
            unfold validateGate at hvalidate
            split at hvalidate
            next hclosed =>
              obtain ⟨id, _, _, _, _, hout, hunused⟩ := checkCloseout_eq_ok hclosed
              intro e he hdone v hv
              rw [hout.named, eqv_str_comm]
              exact not_carried_of_unused h.records hunused he hdone hv
            · cases hvalidate
            · cases hvalidate
        · exact hnew cmd card binding hread hverb hfresh hcard hguard hasks hbinding
  · exact h

lemma closed_fresh (tasks : List TaskRow) : Closed pf (Db.fresh tasks) := by
  refine ⟨?_, List.Pairwise.nil⟩
  intro e he
  cases he

lemma play_concat (tasks : List TaskRow) (turns : List Turn) :
    play pf instant tasks (turns ++ [turn]) =
      serve pf (play pf instant tasks turns) (turn.call pf instant) := by
  rw [play, List.map_append, List.map_singleton, run_concat]
  rfl

lemma play_closed (tasks : List TaskRow) (turns : List Turn)
    (hfloats : ∀ turn ∈ turns, ∀ x ∈ (Value.obj turn.request.items).floats,
      ReadsBack pf.floatRepr x)
    (hnew : ∀ before turn after, turns = before ++ turn :: after →
      NamesNewCloseout pf (play pf instant tasks before) turn.request) :
    Closed pf (play pf instant tasks turns) := by
  induction turns using List.reverseRecOn with
  | nil => exact closed_fresh tasks
  | append_singleton turns turn ih =>
      rw [play_concat]
      refine (ih (fun t ht => hfloats t (List.mem_append_left _ ht)) ?_).serve
        (agrees_run pf tasks _).operations (hfloats turn (by simp)) (hnew turns turn [] rfl)
      intro before t after hsplit
      exact hnew before t (after ++ [turn]) (by rw [hsplit]; simp)

/-- In a run whose completions without a gate name new closeout tasks, no two completions carry one
closeout task; and in every run a completion with a gate follows its closeout. -/
theorem closeouts_apart (pf : Platform) (instant : Text → Option ℤ) (tasks : List TaskRow)
    (turns : List Turn)
    (hfloats : ∀ turn ∈ turns, ∀ x ∈ (Value.obj turn.request.items).floats,
      ReadsBack pf.floatRepr x)
    (hnew : ∀ before turn after, turns = before ++ turn :: after →
      NamesNewCloseout pf (play pf instant tasks before) turn.request) :
    CloseoutsApart (play pf instant tasks turns).events ∧
      ∀ before turn after, turns = before ++ turn :: after →
        GatedCloseout pf instant (play pf instant tasks before) turn := by
  refine ⟨(play_closed tasks turns hfloats hnew).apart, ?_⟩
  intro before turn after _
  exact gatedCloseout (agrees_run pf tasks _).operations

end

/-! ### A closeout that is used twice -/

/-- The moments the times of the closeout stand for. -/
def closeoutInstant (t : Text) : Option ℤ :=
  if t = "2020-01-01T00:00:00+00:00" then some 1577836800000000
  else if t = "2026-01-01T00:00:00+00:00" then some 1767225600000000
  else none

def closeoutDecision : Text :=
  ("type: \"stop_gate_decision\"\ntask_id: \"T\"\ndecision: \"ALLOW\"\n" : Text) ++
    ("final_stage: \"done\"\ndecision_artifact_path: \"h/tasks/T-gate-decision.yaml\"\n" : Text) ++
    ("controller_status: \"done\"\ncontroller_lifecycle_stage: \"done\"\n" : Text) ++
    ("decided_at: \"2026-01-01T00:00:00+00:00\"\n" : Text)

/-- A record whose gate, decision and result are as they should be. -/
def closeoutRecord (first : Text) : Text :=
  first ++ ("task_id: \"T\"\ngate:\n  type: \"stop_gate\"\n  status: \"decided\"\n" : Text) ++
    ("  decision: \"ALLOW\"\n  stage: \"done\"\ngate_decision:\n" : Text) ++
    ((splitlines closeoutDecision).flatMap fun line => ("  " : Text) ++ line ++ ("\n" : Text)) ++
    ("execution_result:\n  controller_lifecycle_stage: \"done\"\n" : Text) ++
    ("  controller_status: \"done\"\n  gate_required: false\n" : Text) ++
    ("  lifecycle_stage: \"done\"\n" : Text)

/-- The binding of a card, under the hash that is known. -/
def closeoutBinding (card closeout : Text) : List (Text × Value) :=
  [(("night_task_id" : Text), .str "n"), ("night_id", .str "n"), ("card_id", .str card),
    ("approval_generation", .int 1), ("approval_hash", .str placeDigest),
    ("input_hash", .str "i"), ("profile_hash", .str placeDigest),
    ("final_candidate_fingerprint", .str "f"), ("review_seal_hash", .str "r"),
    ("audit_seal_hash", .str "a"), ("apply_report_path", .str "p"),
    ("apply_report_hash", .str placeDigest), ("review_report_path", .str "p"),
    ("review_report_hash", .str placeDigest), ("audit_report_path", .str "p"),
    ("audit_report_hash", .str placeDigest), ("night_request_id", .str "n"),
    ("closeout_task_id", .str closeout), ("terminal_done_at", .str "2020-01-01T00:00:00+00:00"),
    ("last_seal_at", .str "2020-01-01T00:00:00+00:00"), ("remaining_evidence", .arr [])]

def closeoutPlatform : Platform := hashingPlatform placeDigest isHexDigest_placeDigest

/-- The input of the gate review of card `a`. -/
def closeoutInput : Text :=
  ("\n## Routing Decision\n\n```json\n" : Text) ++
    (Value.obj [("task_summary", .str (renderCloseoutBinding closeoutPlatform.toRuntime
      (closeoutBinding "a" "T")))]).written " " closeoutPlatform.floatRepr ++ ("\n```\n" : Text)

/-- The files a card is approved by, and those of the closeout `T`. -/
def closeoutDisk : Disk where
  isDir _ := true
  isFile _ := true
  readText path :=
    if path = "h/tasks/T-gate-decision.yaml" then .ok closeoutDecision
    else if path = "h/tasks/T.yaml" then .ok (closeoutRecord "stage: \"done\"\n")
    else if path = "h/tasks/T-routing.yaml" then
      .ok (closeoutRecord "stop_gate: true\nexecution:\n")
    else if path = "h/tasks/T-gate-review-input.md" then .ok closeoutInput
    else .ok "status: approved"
  readBytes _ := .ok []
  resolve path := .ok path
  loadProfile _ := .ok []

def closeoutMoment : Moment where
  disk := closeoutDisk
  clock := bareEnvironment.clock
  lower := id
  home := "h"
  yamlDepth := 100

/-- The fields of a card that can be approved; `money` asks for a gate. -/
def closeoutFields (money : Bool) : List (Text × Value) :=
  [(("title" : Text), .str "t"), ("repo_path", .str "r"), ("worktree_path", .str "r"),
    ("git_common_dir", .str "r"), ("change_name", .str "c"), ("spec_path", .str "s"),
    ("acceptance_path", .str "s"), ("spec_review_pointer", .str "s"),
    ("spec_review_hash", .str placeDigest), ("base_head", .str "b"),
    ("candidate_fingerprint", .str "f"),
    ("risk", .obj (requiredRiskKeys.map fun key =>
      (key, .bool (decide (key = ("money" : Text)) && money)))),
    ("estimate_by_pool", .obj [("p", .int 1)]), ("allowed_commands", .arr [.str "x"]),
    ("profile_name", .str "p"), ("provider", .str "p"), ("model", .str "m"),
    ("effort", .str "low"), ("routing_digest", .str "d"), ("config_digest", .str "d")]

def closeoutItems (command operation : Text) (payload : List (Text × Value)) :
    List (Text × Value) :=
  [(("command" : Text), .str command),
    ("operation_id", .str (("00000000-0000-4000-8000-00000000000" : Text) ++ operation)),
    ("payload", .obj ((("actor" : Text), .str "u") :: payload))]

def newCardItems (operation card : Text) (money : Bool) : List (Text × Value) :=
  closeoutItems "create" operation [("card_id", .str card), ("fields", .obj (closeoutFields money))]

def approveItems (operation card : Text) : List (Text × Value) :=
  closeoutItems "approve" operation [("card_id", .str card), ("expected_revision", .int 0)]

def doneItems (operation card closeout : Text) : List (Text × Value) :=
  closeoutItems "done" operation [("card_id", .str card), ("expected_revision", .int 1),
    ("binding", .obj (closeoutBinding card closeout)),
    ("final_candidate_fingerprint", .str "f"),
    ("gate_decision_path", .str "h/tasks/T-gate-decision.yaml"),
    ("gate_decision_hash", .str placeDigest)]

/-- A card with a gate is completed by the closeout `T`, and then one without a gate, which names
the closeout it likes. -/
def completionTurns (closeout : Text) (h : (Value.obj (doneItems "6" "b" closeout)).wellKeyed = true) :
    List Turn :=
  [⟨closeoutMoment, newCardItems "1" "a" true, by decide +kernel⟩,
    ⟨closeoutMoment, approveItems "2" "a", by decide +kernel⟩,
    ⟨closeoutMoment, doneItems "3" "a" "T", by decide +kernel⟩,
    ⟨closeoutMoment, newCardItems "4" "b" false, by decide +kernel⟩,
    ⟨closeoutMoment, approveItems "5" "b", by decide +kernel⟩,
    ⟨closeoutMoment, doneItems "6" "b" closeout, h⟩]

/-- The closeout task a request names is on no completion on record. -/
def isNewCloseout (db : Db) (request : Request) : Bool :=
  match getValue "payload" request.items with
  | .obj payload =>
    match getValue "binding" payload with
    | .obj binding => db.events.all fun e => !isAcceptedDone e ||
        (carriedCloseout e).all fun v => !(getValue "closeout_task_id" binding).eqv v
    | _ => true
  | _ => true

lemma namesNewCloseout_of_isNew {pf : Platform} {db : Db} {request : Request}
    (h : isNewCloseout db request = true) : NamesNewCloseout pf db request := by
  intro cmd card binding hread _ _ _ _ _ hbinding e he hdone v hv
  rw [isNewCloseout, (readFrom_of_readRequest hread).payload] at h
  simp only [hbinding] at h
  have hall := List.all_eq_true.mp h e he
  simpa [hdone, hv] using hall

lemma twiceKeyed : (Value.obj (doneItems "6" "b" "T")).wellKeyed = true := by decide +kernel

lemma onceKeyed : (Value.obj (doneItems "6" "b" "U")).wellKeyed = true := by decide +kernel

/-- Both runs: the second completion is accepted, with the closeout `T` as with another one. -/
lemma completionTurns_run :
    ¬CloseoutsApart (play closeoutPlatform closeoutInstant []
        (completionTurns "T" twiceKeyed)).events ∧
      ((play closeoutPlatform closeoutInstant [] (completionTurns "U" onceKeyed)).events.filter
        isAcceptedDone).length = 2 ∧
      ∀ n < 6, ∀ turn ∈ (completionTurns "U" onceKeyed)[n]?,
        isNewCloseout (play closeoutPlatform closeoutInstant []
          ((completionTurns "U" onceKeyed).take n)) turn.request = true := by
  decide +kernel

/-- The card without a gate is completed by the closeout of the other card. -/
theorem not_closeouts_apart :
    ¬CloseoutsApart (play closeoutPlatform closeoutInstant []
      (completionTurns "T" twiceKeyed)).events :=
  completionTurns_run.1

/-- With a closeout of its own, the second completion leaves them apart. -/
theorem closeouts_apart_two :
    ∃ turns : List Turn,
      ((play closeoutPlatform closeoutInstant [] turns).events.filter isAcceptedDone).length = 2 ∧
      CloseoutsApart (play closeoutPlatform closeoutInstant [] turns).events ∧
      ∀ before turn after, turns = before ++ turn :: after →
        GatedCloseout closeoutPlatform closeoutInstant
          (play closeoutPlatform closeoutInstant [] before) turn := by
  obtain ⟨-, htwo, hnew⟩ := completionTurns_run
  refine ⟨completionTurns "U" onceKeyed, htwo,
    closeouts_apart closeoutPlatform closeoutInstant [] _ ?_ ?_⟩
  · have hfree : ∀ turn ∈ completionTurns "U" onceKeyed,
        (Value.obj turn.request.items).floatFree = true := by
      decide
    intro turn hturn x hx
    rw [floats_of_floatFree (hfree turn hturn)] at hx
    cases hx
  · intro before turn after hsplit
    have hlength : before.length < 6 := by
      have hsix := congrArg List.length hsplit
      simp only [completionTurns, List.length_cons, List.length_nil, List.length_append] at hsix
      omega
    have hbefore := hnew before.length hlength turn (by rw [hsplit]; simp)
    rw [hsplit, List.take_left] at hbefore
    exact namesNewCloseout_of_isNew hbefore

end Kanban

end AgentOrch
