import AgentOrch.Framework.JsonShape
import AgentOrch.Properties.ApprovalBinding

/-!
# What the journal holds reads back

What a command records of a report or of an edit was checked before it was written: it is shallow and
holds no floats, so every reader finds in the stored text what the command saw.  Sorting the keys on
the way changes no answer of a reader.
-/

namespace AgentOrch

open Py Json

namespace Kanban

/-! ## Readers do not mind the order of keys -/

@[simp] lemma textThat_sortKeys (p : Text → Bool) (v : Value) :
    textThat p v.sortKeys = textThat p v := by
  cases v <;> rfl

@[simp] lemma nullableThat_sortKeys (p : Text → Bool) (v : Value) :
    nullableThat p v.sortKeys = nullableThat p v := by
  cases v <;> rfl

@[simp] lemma integerIn_sortKeys (minimum maximum : ℤ) (v : Value) :
    integerIn minimum maximum v.sortKeys = integerIn minimum maximum v := by
  cases v <;> rfl

@[simp] lemma stateNamed_sortKeys (v : Value) : stateNamed v.sortKeys = stateNamed v := by
  cases v <;> rfl

@[simp] lemma acknowledgement_sortKeys (v : Value) :
    acknowledgement v.sortKeys = acknowledgement v := by
  cases v <;> rfl

lemma nodup_of_wellKeyed {items : List (Text × Value)} (h : (Value.obj items).wellKeyed = true) :
    (dictKeys items).Nodup := by
  simp only [Value.wellKeyed, Bool.and_eq_true, decide_eq_true_eq] at h
  exact h.1

lemma readHandoff_sortKeys (refs : List Text) {v : Value} (h : v.wellKeyed = true) :
    readHandoff refs v.sortKeys = readHandoff refs v := by
  cases v with
  | obj items =>
      have hnodup := nodup_of_wellKeyed h
      rw [sortKeys_obj]
      simp only [readHandoff, keysAre_sortedItems, getValue_sortedItems hnodup,
        nullableThat_sortKeys, acknowledgement_sortKeys]
  | _ => rfl

lemma validateWorkerObservation_sortKeys (refs : List Text) {v : Value} (h : v.wellKeyed = true) :
    validateWorkerObservation v.sortKeys refs = validateWorkerObservation v refs := by
  cases v with
  | obj items =>
      have hnodup := nodup_of_wellKeyed h
      have hhandoff := readHandoff_sortKeys refs
        (wellKeyed_getValue h (rfl : getValue "handoff" items = _))
      rw [sortKeys_obj]
      simp only [validateWorkerObservation, keysAre_sortedItems, getValue_sortedItems hnodup,
        textThat_sortKeys, nullableThat_sortKeys, integerIn_sortKeys, stateNamed_sortKeys, hhandoff]
      cases getValue "handoff" items <;> rfl
  | _ => rfl

/-! ## What a reader accepts is shallow -/

lemma textThat_shallow {p : Text → Bool} {v : Value} {t : Text} (h : textThat p v = some t) (n : ℕ) :
    Shallow n v := by
  rw [(textThat_eq_some h).1]
  exact shallow_str n t

lemma nullableThat_shallow {p : Text → Bool} {v : Value} {t : Option Text}
    (h : nullableThat p v = some t) (n : ℕ) : Shallow n v := by
  cases v with
  | null => exact shallow_null n
  | str s => exact shallow_str n s
  | _ => cases h

lemma integerIn_shallow {minimum maximum i : ℤ} {v : Value} (h : integerIn minimum maximum v = some i)
    (n : ℕ) : Shallow n v := by
  cases v with
  | int j => exact shallow_int n j
  | _ => cases h

lemma stateNamed_shallow {v : Value} {s : WorkerState ⊕ Ending} (h : stateNamed v = some s) (n : ℕ) :
    Shallow n v := by
  cases v with
  | str t => exact shallow_str n t
  | _ => cases h

lemma acknowledgement_shallow {v : Value} {b : Bool} (h : acknowledgement v = some b) (n : ℕ) :
    Shallow n v := by
  cases v with
  | str t => exact shallow_str n t
  | _ => cases h

lemma readHandoff_shallow {refs : List Text} {v : Value} {handoff : Handoff}
    (hkeyed : v.wellKeyed = true) (h : readHandoff refs v = some handoff) : Shallow 1 v := by
  unfold readHandoff at h
  split at h
  next items =>
    simp only [Option.bind_eq_bind, Option.bind_eq_some_iff, Option.guard_eq_some'] at h
    obtain ⟨-, hkeys, _, hstate, _, howner, _, hnext, _, href, -⟩ := h
    refine shallow_obj_of_keys (nodup_of_wellKeyed hkeyed) fun key hkey => ?_
    have hmem := (keysAre_iff.mp hkeys key).mp hkey
    simp only [handoffKeys, List.mem_cons, List.not_mem_nil, or_false] at hmem
    rcases hmem with rfl | rfl | rfl | rfl
    · exact acknowledgement_shallow hstate 0
    · exact nullableThat_shallow howner 0
    · exact nullableThat_shallow hnext 0
    · exact nullableThat_shallow href 0
  · cases h

/-- What the fields of an observation that passes say. -/
structure Reads (items : List (Text × Value)) (refs : List Text) (o : Observation) : Prop where
  keys : keysAre items observationKeys = true
  version : ∃ n, integerIn 1 1 (getValue "schema_version" items) = some n
  attemptId : textThat Trajectory.isUuid (getValue "attempt_id" items) = some o.attemptId
  supersedes : nullableThat Trajectory.isUuid (getValue "supersedes_attempt_id" items) =
    some o.supersedesAttemptId
  previous : nullableThat Trajectory.isUuid (getValue "previous_observation_operation_id" items) =
    some o.previousObservationOperationId
  provider : textThat (plainText 100) (getValue "provider" items) = some o.provider
  threadId : textThat (plainText 500) (getValue "thread_id" items) = some o.threadId
  turnId : nullableThat (plainText 500) (getValue "turn_id" items) = some o.turnId
  coordinator : textThat (plainText 500) (getValue "coordinator" items) = some o.coordinator
  observedAtMs : integerIn 0 maxRevision (getValue "observed_at_ms" items) = some o.observedAtMs
  sourceRef : textThat (plainText 1000) (getValue "source_ref" items) = some o.sourceRef
  named : ∃ named, stateNamed (getValue "state" items) = some named
  handoff : getValue "handoff" items = .null ∨
    ∃ handoff, readHandoff refs (getValue "handoff" items) = some handoff

lemma validateWorkerObservation_eq_ok {v : Value} {refs : List Text} {o : Observation}
    (h : validateWorkerObservation v refs = .ok o) : ∃ items, v = .obj items ∧ Reads items refs o := by
  unfold validateWorkerObservation at h
  dsimp only at h
  split at h
  next items =>
    refine ⟨items, rfl, ?_⟩
    split at h
    · cases h
    next hkeys =>
      split at h
      · cases h
      next read state hfields =>
        simp only [Option.bind_eq_bind, Option.bind_eq_some_iff, Option.guard_eq_some', pure,
          Option.some.injEq, Prod.mk.injEq] at hfields
        obtain ⟨n, hversion, _, hattempt, _, hsupersedes, _, hprevious, _, hprovider, _, hthread, _,
          hturn, _, hcoordinator, _, hobserved, _, hnamed, _, hsource, -, -, rfl, rfl⟩ := hfields
        split at h
        next hhandoff =>
          obtain rfl := Except.ok.inj h
          exact ⟨by simpa using hkeys, ⟨n, hversion⟩, hattempt, hsupersedes, hprevious, hprovider,
            hthread, hturn, hcoordinator, hobserved, hsource, ⟨_, hnamed⟩, .inl hhandoff⟩
        · cases h
      next read ending hfields =>
        simp only [Option.bind_eq_bind, Option.bind_eq_some_iff, Option.guard_eq_some', pure,
          Option.some.injEq, Prod.mk.injEq] at hfields
        obtain ⟨n, hversion, _, hattempt, _, hsupersedes, _, hprevious, _, hprovider, _, hthread, _,
          hturn, _, hcoordinator, _, hobserved, _, hnamed, _, hsource, -, -, rfl, rfl⟩ := hfields
        split at h
        next handoff hhandoff =>
          obtain rfl := Except.ok.inj h
          exact ⟨by simpa using hkeys, ⟨n, hversion⟩, hattempt, hsupersedes, hprevious, hprovider,
            hthread, hturn, hcoordinator, hobserved, hsource, ⟨_, hnamed⟩, .inr ⟨handoff, hhandoff⟩⟩
        · cases h
  · cases h

lemma validateWorkerObservation_shallow {v : Value} {refs : List Text} {o : Observation}
    (hkeyed : v.wellKeyed = true) (h : validateWorkerObservation v refs = .ok o) : Shallow 2 v := by
  obtain ⟨items, rfl, hread⟩ := validateWorkerObservation_eq_ok h
  refine shallow_obj_of_keys (nodup_of_wellKeyed hkeyed) fun key hkey => ?_
  have hmem := (keysAre_iff.mp hread.keys key).mp hkey
  simp only [observationKeys, List.mem_cons, List.not_mem_nil, or_false] at hmem
  obtain ⟨n, hversion⟩ := hread.version
  obtain ⟨named, hnamed⟩ := hread.named
  rcases hmem with rfl | rfl | rfl | rfl | rfl | rfl | rfl | rfl | rfl | rfl | rfl | rfl
  · exact integerIn_shallow hversion 1
  · exact textThat_shallow hread.attemptId 1
  · exact nullableThat_shallow hread.supersedes 1
  · exact nullableThat_shallow hread.previous 1
  · exact textThat_shallow hread.provider 1
  · exact textThat_shallow hread.threadId 1
  · exact nullableThat_shallow hread.turnId 1
  · exact textThat_shallow hread.coordinator 1
  · exact integerIn_shallow hread.observedAtMs 1
  · exact stateNamed_shallow hnamed 1
  · exact textThat_shallow hread.sourceRef 1
  · rcases hread.handoff with hnull | ⟨handoff, hhandoff⟩
    · rw [hnull]
      exact shallow_null 1
    · exact readHandoff_shallow (wellKeyed_getValue hkeyed rfl) hhandoff

/-! ## Stored reports -/

/-- What was checked of a report before it was recorded. -/
structure ReportShape (cmd : Command) (refs : List Text) : Prop where
  keys : ∀ key ∈ dictKeys cmd.payload, key ∈ progressKeys
  status : ∃ t, textThat (fun t => decide (t ∈ progressStatuses))
    (getValue "report_status" cmd.payload) = some t
  summary : ∃ t, textThat (fun t => !isBlank t) (getValue "summary" cmd.payload) = some t
  texts : ∀ key ∈ (["summary", "blocker", "decision", "next_step"] : List Text),
    ∃ t, nullableThat (fun t => decide (t.length ≤ 4000)) (getValue key cmd.payload) = some t
  sources : submittedSources cmd.payload = some refs

lemma validateReport_eq_ok {cmd : Command} {refs : List Text} (h : validateReport cmd = .ok refs) :
    ReportShape cmd refs := by
  simp only [validateReport, stop_bind_eq_ok, refuseUnless_eq_ok] at h
  obtain ⟨-, hkeys, -, hstatus, -, hsummary, -, htexts, h⟩ := h
  split at h
  · cases h
  next sources hsources =>
    simp only [stop_bind_eq_ok, pure, Except.pure, Except.ok.injEq] at h
    obtain ⟨-, -, -, -, rfl⟩ := h
    refine ⟨?_, Option.isSome_iff_exists.mp hstatus, Option.isSome_iff_exists.mp hsummary, ?_,
      hsources⟩
    · intro key hkey
      simpa using List.all_eq_true.mp hkeys key hkey
    · intro key hkey
      exact Option.isSome_iff_exists.mp (List.all_eq_true.mp htexts key hkey)

lemma eq_map_of_mapM_textThat {p : Text → Bool} {items : List Value} {texts : List Text}
    (h : items.mapM (textThat p) = some texts) : items = texts.map .str := by
  induction items generalizing texts with
  | nil =>
      obtain rfl := Option.some.inj h
      rfl
  | cons w rest ih =>
      simp only [List.mapM_cons, Option.bind_eq_bind, Option.bind_eq_some_iff, pure,
        Option.some.injEq] at h
      obtain ⟨t, ht, others, hothers, rfl⟩ := h
      rw [List.map_cons, (textThat_eq_some ht).1, ← ih hothers]

lemma readSources_eq_some {v : Value} {refs : List Text} (h : readSources v = some refs) :
    v = .arr (refs.map .str) := by
  unfold readSources at h
  split at h
  next items =>
    split at h
    · cases h
    · rw [eq_map_of_mapM_textThat h]
  · cases h

lemma readSources_written {payload : List (Text × Value)} {refs : List Text}
    (h : submittedSources payload = some refs) :
    readSources (.arr (refs.map .str)) = some refs := by
  unfold submittedSources at h
  split at h
  · obtain rfl := Option.some.inj h
    rfl
  · rw [← readSources_eq_some h]
    exact h

lemma sources_shallow (refs : List Text) : Shallow 1 (.arr (refs.map .str)) := by
  refine shallow_arr fun v hv => ?_
  obtain ⟨t, -, rfl⟩ := List.mem_map.mp hv
  exact shallow_str 0 t

lemma WorkerBinding.shallow (b : WorkerBinding) : Shallow 1 b.toValue := by
  have hnodup : (dictKeys [(("schema_version" : Text), Value.int 1),
      ("approval_generation", .int b.approvalGeneration), ("scope_digest", .str b.scopeDigest),
      ("started_revision", .int b.startedRevision)]).Nodup := by
    show (["schema_version", "approval_generation", "scope_digest", "started_revision"] :
      List Text).Nodup
    decide
  refine shallow_obj hnodup fun p hp => ?_
  simp only [List.mem_cons, List.not_mem_nil, or_false] at hp
  rcases hp with rfl | rfl | rfl | rfl
  · exact shallow_int 0 _
  · exact shallow_int 0 _
  · exact shallow_str 0 _
  · exact shallow_int 0 _

/-- What the guard and the shape checks know of a report. -/
structure Guarded (cmd : Command) (card : Card) : Prop where
  cardId : getValue "card_id" cmd.payload = .str card.cardId
  expected : getValue "expected_revision" cmd.payload = .int card.revision
  actor : getValue "actor" cmd.payload = .str cmd.actor
  keyed : (Value.obj cmd.payload).wellKeyed = true

/-- A submitted report is shallow, whatever observation passes. -/
lemma payload_shallow {cmd : Command} {card : Card} {refs : List Text} (hguard : Guarded cmd card)
    (hshape : ReportShape cmd refs)
    (hobservation : ∀ v, dictGet "worker_observation" cmd.payload = some v → Shallow 2 v) :
    ∀ p ∈ cmd.payload, Shallow 2 p.2 := by
  intro p hp
  obtain ⟨key, v⟩ := p
  have hnodup := nodup_of_wellKeyed hguard.keyed
  have hget : dictGet key cmd.payload = some v := dictGet_of_mem hnodup hp
  have hvalue : getValue key cmd.payload = v := by rw [getValue, hget]; rfl
  have hmem := hshape.keys key (List.mem_map.mpr ⟨(key, v), hp, rfl⟩)
  simp only [progressKeys, List.mem_cons, List.not_mem_nil, or_false] at hmem
  obtain ⟨status, hstatus⟩ := hshape.status
  obtain ⟨summary, hsummary⟩ := hshape.summary
  have htext : ∀ key ∈ (["summary", "blocker", "decision", "next_step"] : List Text),
      Shallow 2 (getValue key cmd.payload) := by
    intro key hkey
    obtain ⟨t, ht⟩ := hshape.texts key hkey
    exact nullableThat_shallow ht 2
  show Shallow 2 v
  rcases hmem with rfl | rfl | rfl | rfl | rfl | rfl | rfl | rfl | rfl | rfl
  · rw [← hvalue, hguard.cardId]
    exact shallow_str 2 _
  · rw [← hvalue, hguard.expected]
    exact shallow_int 2 _
  · rw [← hvalue, hguard.actor]
    exact shallow_str 2 _
  · rw [← hvalue]
    exact textThat_shallow hstatus 2
  · rw [← hvalue]
    exact htext _ (by simp)
  · rw [← hvalue]
    exact htext _ (by simp)
  · rw [← hvalue]
    exact htext _ (by simp)
  · rw [← hvalue]
    exact htext _ (by simp)
  · have hsources := hshape.sources
    rw [submittedSources, hget] at hsources
    rw [readSources_eq_some hsources]
    exact (sources_shallow refs).mono (by omega)
  · exact hobservation v hget

section
variable {pf : Platform} {env : Environment} {db db' : Db} {cmd : Command}

/-- The binding an observation is given, and the observation. -/
lemma reportBinding_eq_ok {card : Card} {payload : List (Text × Value)} {refs : List Text}
    {binding : List (Text × Value)} (h : reportBinding pf db card payload refs = .ok binding) :
    (dictGet "worker_observation" payload = none ∧ binding = []) ∨
      ∃ v o b, dictGet "worker_observation" payload = some v ∧
        validateWorkerObservation v refs = .ok o ∧ workerBinding pf db card o = .ok b ∧
        binding = [(("worker_binding" : Text), b.toValue)] := by
  unfold reportBinding at h
  split at h
  next hnone => exact .inl ⟨hnone, (Except.ok.inj h).symm⟩
  next v hsome =>
    dsimp only at h
    split at h
    next b hbound =>
      obtain ⟨o, ho, hb⟩ := bind_eq_ok.mp hbound
      exact .inr ⟨v, o, b, hsome, ho, hb, (Except.ok.inj h).symm⟩
    · cases h

/-- What a stored report holds under a key the command did not set. -/
lemma dictGet_reportEvent {card : Card} {digest : Text} {payload binding : List (Text × Value)}
    {refs : List Text} {key : Text} (hprogress : key ≠ "progress_binding")
    (hsources : key ≠ "source_refs") (hbinding : dictGet key binding = none) :
    dictGet key (reportEvent card digest payload refs binding) = dictGet key payload := by
  rw [reportEvent, dictGet_append, hbinding, dictGet_dictSet, dictGet_dictSet,
    if_neg hprogress.symm, if_neg hsources.symm, Option.or_none]

lemma dictGet_reportEvent_sources {card : Card} {digest : Text}
    {payload binding : List (Text × Value)} {refs : List Text} :
    dictGet "source_refs" (reportEvent card digest payload refs binding) =
      some (.arr (refs.map .str)) := by
  have hne : ("progress_binding" : Text) ≠ "source_refs" := by decide
  rw [reportEvent, dictGet_append, dictGet_dictSet, dictGet_dictSet, if_neg hne, if_pos rfl]
  rfl

/-- A stored report is shallow. -/
lemma reportEvent_shallow {card : Card} {digest : Text} {refs : List Text}
    {binding : List (Text × Value)} (hguard : Guarded cmd card) (hshape : ReportShape cmd refs)
    (hbinding : reportBinding pf db card cmd.payload refs = .ok binding) :
    Shallow 3 (.obj (reportEvent card digest cmd.payload refs binding)) := by
  have hnodup := nodup_of_wellKeyed hguard.keyed
  have hkey : ("worker_binding" : Text) ∉ dictKeys (dictSet "progress_binding"
      (.obj [("schema_version", .int 1), ("approval_generation", .int card.approvalGeneration),
        ("scope_digest", .str digest)])
      (dictSet "source_refs" (.arr (refs.map .str)) cmd.payload)) := by
    intro hmem
    rw [← dictGet_isSome, dictGet_dictSet, dictGet_dictSet, if_neg (by decide), if_neg (by decide),
      dictGet_isSome] at hmem
    exact absurd (hshape.keys _ hmem) (by decide)
  have hobservation : ∀ v, dictGet "worker_observation" cmd.payload = some v → Shallow 2 v := by
    intro v hv
    rcases reportBinding_eq_ok hbinding with ⟨hnone, -⟩ | ⟨w, o, b, hw, ho, -, -⟩
    · rw [hnone] at hv
      cases hv
    · obtain rfl := Option.some.inj (hw.symm.trans hv)
      exact validateWorkerObservation_shallow
        (wellKeyed_getValue hguard.keyed (by rw [getValue, hw]; rfl)) ho
  have hprogress : Shallow 1 (.obj [("schema_version", .int 1),
      ("approval_generation", .int card.approvalGeneration), ("scope_digest", .str digest)]) := by
    refine shallow_obj ?_ fun p hp => ?_
    · show (["schema_version", "approval_generation", "scope_digest"] : List Text).Nodup
      decide
    · simp only [List.mem_cons, List.not_mem_nil, or_false] at hp
      rcases hp with rfl | rfl | rfl
      · exact shallow_int 0 _
      · exact shallow_int 0 _
      · exact shallow_str 0 _
  have hbase : ∀ p ∈ dictSet "progress_binding" (.obj [("schema_version", .int 1),
      ("approval_generation", .int card.approvalGeneration), ("scope_digest", .str digest)])
      (dictSet "source_refs" (.arr (refs.map .str)) cmd.payload), Shallow 2 p.2 := by
    rintro ⟨key, v⟩ hp
    rcases mem_dictSet hp with hp | ⟨-, rfl⟩
    · rcases mem_dictSet hp with hp | ⟨-, rfl⟩
      · exact payload_shallow hguard hshape hobservation _ hp
      · exact (sources_shallow refs).mono (by omega)
    · exact hprogress.mono (by omega)
  rcases reportBinding_eq_ok hbinding with ⟨-, rfl⟩ | ⟨v, o, b, -, -, -, rfl⟩
  · rw [reportEvent, List.append_nil]
    exact shallow_obj (nodup_dictSet (nodup_dictSet hnodup)) hbase
  · refine shallow_obj ?_ fun p hp => ?_
    · rw [reportEvent, dictKeys, List.map_append]
      refine List.nodup_append.mpr ⟨nodup_dictSet (nodup_dictSet hnodup), List.nodup_singleton _, ?_⟩
      rintro a ha b' hb rfl
      rw [List.mem_singleton.mp hb] at ha
      exact hkey ha
    · rcases List.mem_append.mp hp with hp | hp
      · exact hbase p hp
      · obtain rfl := List.mem_singleton.mp hp
        exact b.shallow.mono (by omega)

/-! ## Reading back -/

lemma dumpsPadded_of_jsonText {rt : Runtime} {v : Value} {t : Text} (h : jsonText rt v = .ok t) :
    dumpsPadded " " rt.dumpsDepth rt.floatRepr v = .ok t := by
  unfold jsonText at h
  cases hd : dumpsPadded " " rt.dumpsDepth rt.floatRepr v with
  | error e => simp [hd, Except.mapError] at h
  | ok t' => simpa [hd, Except.mapError] using h

/-- A written text of a shallow value reads back, in Python and in SQL. -/
lemma loads_stored {rt : Runtime} {n : ℕ} {v : Value} {t : Text} (h : Shallow n v)
    (hn : n ≤ rt.loadsDepth) (hsql : n ≤ 1000) (ht : jsonText rt v = .ok t) :
    (Cell.text t).loads rt = .ok v.sortKeys ∧ sqlJson rt (.text t) = some v.sortKeys := by
  have hpad : (" " : Text).all isJsonSpace = true := by decide
  have hwritten := dumpsPadded_of_jsonText ht
  have hjson : ∀ nesting, n ≤ nesting → Json.loads ⟨nesting, false⟩ t = .ok v.sortKeys :=
    fun nesting hle => Shallow.loads (o := ⟨nesting, false⟩) h hle hpad hwritten
  have hread : rt.loads false t = .ok v.sortKeys := by
    simp only [Runtime.loads, hjson _ hn]
  have hne : t ≠ [] := by
    rintro rfl
    have hempty := hjson n le_rfl
    have herror : Json.loads ⟨n, false⟩ [] = .error .decode := rfl
    rw [herror] at hempty
    cases hempty
  have hfloats : v.sortKeys.floats = [] := floats_of_floatFree (floatFree_sortKeys v h.floatFree)
  have hdepth : v.sortKeys.depth ≤ 1000 := (depth_sortKeys v).trans_le (h.depth.trans hsql)
  constructor
  · unfold Cell.loads
    split
    next heq => cases heq
    next heq => exact absurd (Cell.text.inj heq) hne
    next heq => cases heq
    next heq =>
      obtain rfl := Cell.text.inj heq
      exact hread
    all_goals next heq => cases heq
  · simp [sqlJson, hread, hfloats, hdepth]

/-- The observation a stored report holds. -/
def observationIn (rt : Runtime) (event : Event) : Option Observation :=
  match event.payload.loads rt with
  | .ok (.obj items) =>
    (readSources (getValue "source_refs" items)).bind fun refs =>
      (validateWorkerObservation (getValue "worker_observation" items) refs).toOption
  | _ => none

/-- A report on record: every reader finds the same document, and in it the observation, or none. -/
structure StoredReport (rt : Runtime) (event : Event) : Prop where
  document : ∃ items, event.payload.loads rt = .ok (.obj items) ∧
    sqlJson rt event.payload = some (.obj items) ∧
    (∃ actor, event.actor = .text actor ∧ getValue "actor" items = .str actor) ∧
    (("worker_observation" : Text) ∈ dictKeys items ↔ (observationIn rt event).isSome = true) ∧
    (("worker_binding" : Text) ∈ dictKeys items ↔ (observationIn rt event).isSome = true) ∧
    ∀ o, observationIn rt event = some o →
      ((jsonMember "worker_observation" (.obj items)).bind (jsonMember "attempt_id")) =
        some (.str o.attemptId)

lemma getValue_of_dictGet {items items' : List (Text × Value)} {key : Text}
    (h : dictGet key items = dictGet key items') : getValue key items = getValue key items' := by
  rw [getValue, getValue, h]

lemma dictGet_binding {card : Card} {payload binding : List (Text × Value)} {refs : List Text}
    (h : reportBinding pf db card payload refs = .ok binding) {key : Text}
    (hkey : key ≠ "worker_binding") : dictGet key binding = none := by
  rcases reportBinding_eq_ok h with ⟨-, rfl⟩ | ⟨v, o, b, -, -, -, rfl⟩
  · rfl
  · rw [dictGet_cons, if_neg hkey.symm, dictGet_nil]

lemma sortItems_str (refs : List Text) : sortItems (refs.map .str) = refs.map .str := by
  induction refs with
  | nil => rfl
  | cons t rest ih => rw [List.map_cons, sortItems, ih]; rfl

/-- The event of an accepted report, and the observation it holds. -/
lemma reported_stored {card : Card} {refs : List Text} {digest text delta : Text}
    {binding : List (Text × Value)} {revision : ℤ} {event : Event} (hdepth : 3 ≤ pf.loadsDepth)
    (hguard : Guarded cmd card) (hshape : ReportShape cmd refs)
    (hbinding : reportBinding pf db card cmd.payload refs = .ok binding)
    (htext : jsonText pf.toRuntime (.obj (reportEvent card digest cmd.payload refs binding)) =
      .ok text)
    (hevent : event = acceptedEvent env.clock cmd card.cardId revision text delta) :
    StoredReport pf.toRuntime event ∧
      (observationIn pf.toRuntime event = none ∨
        ∃ o b, workerBinding pf db card o = .ok b ∧ observationIn pf.toRuntime event = some o) := by
  have hshallow : Shallow 3 (.obj (reportEvent card digest cmd.payload refs binding)) :=
    reportEvent_shallow hguard hshape hbinding
  have hnodup := nodup_of_wellKeyed hshallow.keyed
  obtain ⟨hloads, hsql⟩ := loads_stored hshallow hdepth (by omega) htext
  rw [sortKeys_obj] at hloads hsql
  set items := sortedItems (reportEvent card digest cmd.payload refs binding) with hitems
  have hpayload : event.payload = .text text := by rw [hevent]; rfl
  have hactor : event.actor = .text cmd.actor := by rw [hevent]; rfl
  have hget : ∀ key : Text, key ≠ "progress_binding" → key ≠ "source_refs" →
      key ≠ "worker_binding" → dictGet key items = (dictGet key cmd.payload).map Value.sortKeys := by
    intro key hprogress hsources hworker
    rw [hitems, dictGet_sortedItems hnodup,
      dictGet_reportEvent hprogress hsources (dictGet_binding hbinding hworker)]
  have hstated : getValue "actor" items = .str cmd.actor := by
    have hsubmitted := hguard.actor
    rw [getValue, hget "actor" (by decide) (by decide) (by decide)]
    rw [getValue] at hsubmitted
    cases hfound : dictGet "actor" cmd.payload with
    | none => rw [hfound] at hsubmitted; cases hsubmitted
    | some v =>
        rw [hfound] at hsubmitted
        obtain rfl : v = .str cmd.actor := hsubmitted
        rfl
  have hrefs : readSources (getValue "source_refs" items) = some refs := by
    rw [hitems, getValue_sortedItems hnodup, getValue, dictGet_reportEvent_sources]
    show readSources (.arr (sortItems (refs.map .str))) = some refs
    rw [sortItems_str]
    exact readSources_written hshape.sources
  have hobserved : observationIn pf.toRuntime event =
      (validateWorkerObservation (getValue "worker_observation" items) refs).toOption := by
    rw [observationIn, hpayload, hloads]
    simp only [hrefs, Option.bind_some]
  have hobservation := hget "worker_observation" (by decide) (by decide) (by decide)
  have hmember : ∀ key : Text, key ∈ dictKeys items ↔
      (dictGet key (reportEvent card digest cmd.payload refs binding)).isSome = true := by
    intro key
    rw [hitems, mem_dictKeys_sortedItems, dictGet_isSome]
  rcases reportBinding_eq_ok hbinding with ⟨hnone, hnil⟩ | ⟨v, o, b, hsome, ho, hb, hone⟩
  · have hnot : observationIn pf.toRuntime event = none := by
      rw [hobserved, getValue, hobservation, hnone]
      rfl
    refine ⟨⟨items, hpayload ▸ hloads, hpayload ▸ hsql, ⟨cmd.actor, hactor, hstated⟩, ?_, ?_, ?_⟩,
      .inl hnot⟩
    · rw [← dictGet_isSome, hobservation, hnone, hnot]
      rfl
    · rw [hmember, hnot, reportEvent, hnil, List.append_nil, dictGet_dictSet, dictGet_dictSet,
        if_neg (by decide), if_neg (by decide), dictGet_isSome]
      exact iff_of_false (fun hmem => absurd (hshape.keys _ hmem) (by decide)) (by decide)
    · intro o ho
      rw [hnot] at ho
      cases ho
  · have hsubmitted : getValue "worker_observation" cmd.payload = v := by rw [getValue, hsome]; rfl
    have hkeyed : v.wellKeyed = true := wellKeyed_getValue hguard.keyed hsubmitted
    have hfound : observationIn pf.toRuntime event = some o := by
      rw [hobserved, getValue, hobservation, hsome]
      show (validateWorkerObservation v.sortKeys refs).toOption = some o
      rw [validateWorkerObservation_sortKeys refs hkeyed, ho]
      rfl
    refine ⟨⟨items, hpayload ▸ hloads, hpayload ▸ hsql, ⟨cmd.actor, hactor, hstated⟩, ?_, ?_, ?_⟩,
      .inr ⟨o, b, hb, hfound⟩⟩
    · rw [← dictGet_isSome, hobservation, hsome, hfound]
      rfl
    · rw [hmember, hfound, reportEvent, hone, dictGet_append, dictGet_single]
      cases dictGet "worker_binding" (dictSet "progress_binding" _ _) <;> simp
    · intro o' ho'
      obtain rfl := Option.some.inj (hfound.symm.trans ho')
      obtain ⟨fields, rfl, hread⟩ := validateWorkerObservation_eq_ok ho
      have hattempt := (textThat_eq_some hread.attemptId).1
      simp only [jsonMember, hobservation, hsome, Option.map_some, sortKeys_obj, Option.bind_some]
      rw [dictGet_sortedItems (nodup_of_wellKeyed hkeyed)]
      rw [getValue] at hattempt
      cases hfound' : dictGet "attempt_id" fields with
      | none => rw [hfound'] at hattempt; cases hattempt
      | some w =>
          rw [hfound'] at hattempt
          obtain rfl : w = .str o.attemptId := hattempt
          rfl

/-! ## Stored edits -/

/-- An edit on record: every reader finds the scope fields it changed. -/
structure StoredEdit (rt : Runtime) (event : Event) : Prop where
  delta : ∃ items fields, event.metadataDelta.loads rt = .ok (.obj items) ∧
    sqlJson rt event.metadataDelta = some (.obj items) ∧
    dictGet "scope_fields_changed" items = some (.arr fields)

lemma Field.ofName_eq_some {name : Text} {f : Field} (h : Field.ofName name = some f) :
    f.name = name := by
  simpa using List.find?_some h

lemma Field.name_ne (f : Field) : f.name ≠ "approval_revoked" ∧ f.name ≠ "manual_state" ∧
    f.name ≠ "scope_fields_changed" := by
  cases f with
  | scope f => cases f <;> decide
  | title => decide
  | note => decide
  | priority => decide

lemma names_of_mapM {items : List (Text × Value)} {fields : List (Field × Value)}
    (h : items.mapM (fun p => (Field.ofName p.1).map fun f => (f, p.2)) = some fields) :
    fields.map (fun p => p.1.name) = dictKeys items := by
  induction items generalizing fields with
  | nil =>
      obtain rfl := Option.some.inj h
      rfl
  | cons p rest ih =>
      simp only [List.mapM_cons, Option.bind_eq_bind, Option.bind_eq_some_iff,
        Option.map_eq_some_iff, pure, Option.some.injEq] at h
      obtain ⟨_, ⟨f, hf, rfl⟩, others, hothers, rfl⟩ := h
      rw [List.map_cons, ih hothers, Field.ofName_eq_some hf]
      rfl

/-- The fields of a request have distinct names. -/
lemma readFields_nodup {raw : Value} {fields : List (Field × Value)} (hkeyed : raw.wellKeyed = true)
    (h : readFields raw = .ok fields) : (fields.map fun p => p.1.name).Nodup := by
  unfold readFields at h
  split at h
  · obtain rfl := Except.ok.inj h
    exact List.nodup_nil
  next items =>
    split at h
    · cases h
    next named hnamed =>
      simp only [stop_bind_eq_ok, pure, Except.pure, Except.ok.injEq] at h
      obtain ⟨-, -, rfl⟩ := h
      rw [names_of_mapM hnamed]
      exact nodup_of_wellKeyed hkeyed
  · cases h

lemma dictKeys_storedPairs (stored : List (Field × Option Text)) :
    dictKeys (storedPairs stored) = stored.map fun p => p.1.name := by
  simp [dictKeys, storedPairs, Function.comp_def]

lemma optText_shallow (t : Option Text) (n : ℕ) : Shallow n (Trajectory.optText t) := by
  cases t with
  | none => exact shallow_null n
  | some t => exact shallow_str n t

/-- The event of an accepted edit. -/
lemma edited_stored {fields : List (Field × Value)} {stored : List (Field × Option Text)}
    {marks : List (Text × Value)} {delta : Text} {event : Event} (hdepth : 3 ≤ pf.loadsDepth)
    (hkeyed : (Value.obj cmd.payload).wellKeyed = true)
    (hfields : readFields (getValue "fields" cmd.payload) = .ok fields)
    (hstored : storable pf.toRuntime fields = .ok stored)
    (hmarks : marks.Sublist
      [(("approval_revoked" : Text), .bool true), (("manual_state" : Text), .str "inbox")])
    (htext : jsonText pf.toRuntime (.obj (storedPairs stored ++ marks ++
      [(("scope_fields_changed" : Text), .arr ((touchedScope fields).map .str))])) = .ok delta)
    (hevent : event.metadataDelta = .text delta) : StoredEdit pf.toRuntime event := by
  set items := storedPairs stored ++ marks ++
    [(("scope_fields_changed" : Text), .arr ((touchedScope fields).map .str))] with hitems
  have hnames : (stored.map fun p => p.1.name).Nodup := by
    have hsame : (stored.map fun p => p.1.name) = fields.map fun p => p.1.name := by
      have hmap := congrArg (List.map Field.name) (storable_fields hstored)
      simpa [Function.comp_def] using hmap
    rw [hsame]
    exact readFields_nodup (wellKeyed_getValue hkeyed rfl) hfields
  have hmarkKeys : (dictKeys marks).Sublist ["approval_revoked", "manual_state"] := hmarks.map Prod.fst
  have hnodup : (dictKeys items).Nodup := by
    rw [hitems, dictKeys, List.map_append, List.map_append]
    refine List.nodup_append.mpr ⟨List.nodup_append.mpr ⟨?_, ?_, ?_⟩, List.nodup_singleton _, ?_⟩
    · show (dictKeys (storedPairs stored)).Nodup
      rw [dictKeys_storedPairs]
      exact hnames
    · exact hmarkKeys.nodup (by decide)
    · intro a ha b hb hab
      have hname : a ∈ dictKeys (storedPairs stored) := ha
      rw [dictKeys_storedPairs] at hname
      obtain ⟨p, -, hp⟩ := List.mem_map.mp hname
      have hmark := hmarkKeys.subset hb
      simp only [List.mem_cons, List.not_mem_nil, or_false] at hmark
      rcases hmark with rfl | rfl
      · exact p.1.name_ne.1 (hp.trans hab)
      · exact p.1.name_ne.2.1 (hp.trans hab)
    · intro a ha b hb hab
      replace hb : b = "scope_fields_changed" := by simpa using hb
      rcases List.mem_append.mp ha with ha | ha
      · have hname : a ∈ dictKeys (storedPairs stored) := ha
        rw [dictKeys_storedPairs] at hname
        obtain ⟨p, -, hp⟩ := List.mem_map.mp hname
        exact p.1.name_ne.2.2 (hp.trans (hab.trans hb))
      · have hmark := hmarkKeys.subset ha
        rw [hab, hb] at hmark
        exact absurd hmark (by decide)
  have hshallow : Shallow 2 (.obj items) := by
    refine shallow_obj hnodup fun p hp => ?_
    rcases List.mem_append.mp hp with hp | hp
    · rcases List.mem_append.mp hp with hp | hp
      · obtain ⟨q, -, rfl⟩ := List.mem_map.mp hp
        exact optText_shallow q.2 1
      · have hmark := hmarks.subset hp
        simp only [List.mem_cons, List.not_mem_nil, or_false] at hmark
        rcases hmark with rfl | rfl
        · exact shallow_bool 1 true
        · exact shallow_str 1 _
    · obtain rfl := List.mem_singleton.mp hp
      exact sources_shallow _
  obtain ⟨hloads, hsql⟩ := loads_stored hshallow (by omega) (by omega) htext
  rw [sortKeys_obj] at hloads hsql
  refine ⟨sortedItems items, (touchedScope fields).map .str, hevent ▸ hloads, hevent ▸ hsql, ?_⟩
  have hget : dictGet "scope_fields_changed" items = some (.arr ((touchedScope fields).map .str)) :=
    dictGet_of_mem hnodup (by rw [hitems]; simp)
  rw [dictGet_sortedItems hnodup, hget]
  show some (Value.arr (sortItems ((touchedScope fields).map .str))) = _
  rw [sortItems_str]

/-! ## The journal reads back -/

/-- An accepted event that moved its card without creating it. -/
def isEvidence (event : Event) : Bool :=
  isAcceptedReport event || (decide (event.kind = ("edit" : Text)) && decide (event.result = .accepted))

/-- What every step keeps of the texts of the journal. -/
structure Db.ReadsBack (pf : Platform) (db : Db) : Prop where
  reports : ∀ e ∈ db.events, isAcceptedReport e = true → StoredReport pf.toRuntime e
  edits : ∀ e ∈ db.events, e.kind = "edit" → e.result = .accepted → StoredEdit pf.toRuntime e
  positive : ∀ e ∈ db.events, isEvidence e = true → ∃ n : ℤ, 1 ≤ n ∧ e.resultRevision = .int n
  times : ∀ e ∈ db.events, ∃ n : ℤ, 0 ≤ n ∧ e.time = .int n

lemma guarded_of_moved {card : Card} {terminal claimed : Bool} (hcmd : IsCommand pf cmd)
    (hnamed : db.card (getValue "card_id" cmd.payload) = some card)
    (hguard : guardCard (some card) cmd.payload terminal claimed = .ok card) : Guarded cmd card where
  cardId := (card_eq_some hnamed).1
  expected := (guardCard_eq_ok hguard).2.1
  actor := hcmd.wellShaped.actor
  keyed := hcmd.wellShaped.keyed

/-- An event of another command is no accepted report. -/
lemma not_report {event : Event} (hkind : event.kind = cmd.verb.name)
    (hverb : cmd.verb ≠ .reportProgress) : isAcceptedReport event = false := by
  have hne : event.kind ≠ "report-progress" := fun heq =>
    hverb (name_injective (hkind.symm.trans heq))
  simp [isAcceptedReport, hne]

lemma not_edit {event : Event} (hkind : event.kind = cmd.verb.name) (hverb : cmd.verb ≠ .edit) :
    event.kind ≠ "edit" :=
  fun heq => hverb (name_injective (hkind.symm.trans heq))

lemma Effect.kind_eq {event : Event} (h : Effect pf env db cmd event db') :
    event.kind = cmd.verb.name := by
  cases h with
  | rejected _ _ hkind => exact hkind
  | quota _ _ _ hkind => exact hkind
  | created => rfl
  | moved => rfl

/-- What an accepted report of a card leaves in the journal. -/
lemma reported_of_moved {card : Card} {change : Change} {delta : Text} {event : Event}
    {terminal claimed : Bool} (hdepth : 3 ≤ pf.loadsDepth) (hcmd : IsCommand pf cmd)
    (hnamed : db.card (getValue "card_id" cmd.payload) = some card)
    (hguard : guardCard (some card) cmd.payload terminal claimed = .ok card)
    (hchange : Changes pf env db cmd card change)
    (hevent : event = acceptedEvent env.clock cmd card.cardId (card.revision + 1)
      change.record.payload delta) (hverb : cmd.verb = .reportProgress) :
    StoredReport pf.toRuntime event ∧
      (observationIn pf.toRuntime event = none ∨
        ∃ o b, workerBinding pf db card o = .ok b ∧ observationIn pf.toRuntime event = some o) := by
  cases hchange with
  | reported _ hrefs _ hbinding htext =>
      exact reported_stored hdepth (guarded_of_moved hcmd hnamed hguard) (validateReport_eq_ok hrefs)
        hbinding htext hevent
  | placed h => exact absurd (h.symm.trans hverb) (by decide)
  | edited h => exact absurd (h.symm.trans hverb) (by decide)
  | approved h => exact absurd (h.symm.trans hverb) (by decide)
  | invalidated h => rcases h with h | h <;> exact absurd (h.symm.trans hverb) (by decide)
  | archived h => exact absurd (h.symm.trans hverb) (by decide)
  | paused h => exact absurd (h.symm.trans hverb) (by decide)
  | finished h => exact absurd (h.symm.trans hverb) (by decide)

/-- What an accepted edit of a card leaves in the journal. -/
lemma edited_of_moved {card : Card} {change : Change} {delta : Text} {event : Event}
    (hdepth : 3 ≤ pf.loadsDepth) (hcmd : IsCommand pf cmd)
    (hchange : Changes pf env db cmd card change)
    (hdelta : jsonText pf.toRuntime (.obj change.record.delta) = .ok delta)
    (hevent : event.metadataDelta = .text delta) (hverb : cmd.verb = .edit) :
    StoredEdit pf.toRuntime event := by
  cases hchange with
  | edited _ hfields hstored hmarks =>
      exact edited_stored hdepth hcmd.wellShaped.keyed hfields hstored hmarks hdelta hevent
  | reported h => exact absurd (h.symm.trans hverb) (by decide)
  | placed h => exact absurd (h.symm.trans hverb) (by decide)
  | approved h => exact absurd (h.symm.trans hverb) (by decide)
  | invalidated h => rcases h with h | h <;> exact absurd (h.symm.trans hverb) (by decide)
  | archived h => exact absurd (h.symm.trans hverb) (by decide)
  | paused h => exact absurd (h.symm.trans hverb) (by decide)
  | finished h => exact absurd (h.symm.trans hverb) (by decide)

/-- The new event of a step reads back, if it is an accepted report. -/
lemma Effect.report_readsBack {event : Event} (hdepth : 3 ≤ pf.loadsDepth) (hcmd : IsCommand pf cmd)
    (h : Effect pf env db cmd event db') (hreport : isAcceptedReport event = true) :
    StoredReport pf.toRuntime event := by
  have hverb : cmd.verb = .reportProgress := by
    by_contra hne
    rw [not_report h.kind_eq hne] at hreport
    cases hreport
  cases h with
  | rejected _ _ _ _ hresult => simp [isAcceptedReport, hresult] at hreport
  | quota hquota => rcases hquota with hq | hq | hq <;> exact absurd (hq.symm.trans hverb) (by decide)
  | created hcreate => exact absurd (hcreate.symm.trans hverb) (by decide)
  | moved hnamed hguard hchange =>
      exact (reported_of_moved hdepth hcmd hnamed hguard hchange rfl hverb).1

/-- The new event of a step reads back, if it is an accepted edit. -/
lemma Effect.edit_readsBack {event : Event} (hdepth : 3 ≤ pf.loadsDepth) (hcmd : IsCommand pf cmd)
    (h : Effect pf env db cmd event db') (hedit : event.kind = "edit")
    (haccepted : event.result = .accepted) : StoredEdit pf.toRuntime event := by
  have hverb : cmd.verb = .edit := by
    by_contra hne
    exact not_edit h.kind_eq hne hedit
  cases h with
  | rejected _ _ _ _ hresult =>
      rw [hresult] at haccepted
      cases haccepted
  | quota hquota => rcases hquota with hq | hq | hq <;> exact absurd (hq.symm.trans hverb) (by decide)
  | created hcreate => exact absurd (hcreate.symm.trans hverb) (by decide)
  | moved _ _ hchange _ _ hdelta => exact edited_of_moved hdepth hcmd hchange hdelta rfl hverb

lemma Effect.time_eq {event : Event} (h : Effect pf env db cmd event db') :
    event.time = .int env.clock.now := by
  cases h with
  | rejected _ _ _ htime => exact htime
  | quota _ _ _ _ htime => exact htime
  | created => rfl
  | moved => rfl

/-- The new event of a step that is evidence moved a card, by one revision. -/
lemma Effect.positive {event : Event} (h : Effect pf env db cmd event db') (hdb : db.Agrees)
    (hevidence : isEvidence event = true) : ∃ n : ℤ, 1 ≤ n ∧ event.resultRevision = .int n := by
  have hverb : cmd.verb = .reportProgress ∨ cmd.verb = .edit := by
    by_contra hne
    rw [not_or] at hne
    simp [isEvidence, not_report h.kind_eq hne.1, not_edit h.kind_eq hne.2] at hevidence
  cases h with
  | rejected _ _ _ _ hresult => simp [isEvidence, isAcceptedReport, hresult] at hevidence
  | quota hquota =>
      rcases hquota with hq | hq | hq <;> rcases hverb with hv | hv <;>
        exact absurd (hq.symm.trans hv) (by decide)
  | created hcreate => rcases hverb with hv | hv <;> exact absurd (hcreate.symm.trans hv) (by decide)
  | @moved card _ _ _ _ hnamed =>
      have hnonneg := (hdb.journaled card (mem_of_card hnamed)).nonneg
      exact ⟨card.revision + 1, by omega, rfl⟩

lemma Step.readsBack (hdepth : 3 ≤ pf.loadsDepth) (hagrees : db.Agrees) (h : Step pf db db')
    (hdb : db.ReadsBack pf) : db'.ReadsBack pf := by
  cases h with
  | idle => exact hdb
  | @recorded _ _ event _ hcmd _ heffect =>
      have hmem : ∀ e ∈ db'.events, e ∈ db.events ∨ e = event := by
        intro e he
        rw [heffect.events_eq] at he
        simpa using he
      constructor
      · intro e he hreport
        rcases hmem e he with he | rfl
        · exact hdb.reports e he hreport
        · exact heffect.report_readsBack hdepth hcmd hreport
      · intro e he hedit haccepted
        rcases hmem e he with he | rfl
        · exact hdb.edits e he hedit haccepted
        · exact heffect.edit_readsBack hdepth hcmd hedit haccepted
      · intro e he hevidence
        rcases hmem e he with he | rfl
        · exact hdb.positive e he hevidence
        · exact heffect.positive hagrees hevidence
      · intro e he
        rcases hmem e he with he | rfl
        · exact hdb.times e he
        · exact ⟨_, Clock.now_nonneg _, heffect.time_eq⟩

lemma readsBack_run (tasks : List TaskRow) (calls : List Call) (hdepth : 3 ≤ pf.loadsDepth) :
    (run pf (Db.fresh tasks) calls).ReadsBack pf := by
  refine run_invariant tasks ?_ (fun db db' hagrees hdb hstep =>
    hstep.readsBack hdepth hagrees hdb) calls
  constructor <;> intro e he <;> cases he

end

end Kanban

end AgentOrch
