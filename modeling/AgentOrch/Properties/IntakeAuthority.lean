import AgentOrch.Properties.WrittenEnvelopes

/-!
# The authority of an enqueued task

A task that is enqueued carries an envelope, and every reader of its input reads the same one.  Each
member in it names where it comes from, and that is true: a requirement was offered with a quote of
its own that the sources hold, a default is a span of the scope, and what the engine owns is one of
the outputs of the task.
-/

namespace AgentOrch

open Py Json

namespace Intake

/-! ## Equal objects -/

section
variable {items others : List (Text × Value)}

lemma eqvPairs_mem (h : eqvPairs items others = true) {p : Text × Value} (hp : p ∈ items) :
    ∃ w, dictGet p.1 others = some w ∧ p.2.eqv w = true := by
  induction items with
  | nil => exact absurd hp List.not_mem_nil
  | cons q items ih =>
      obtain ⟨k, v⟩ := q
      rw [eqvPairs, Bool.and_eq_true] at h
      rcases List.mem_cons.mp hp with rfl | hp
      · cases hget : dictGet k others with
        | none =>
            rw [hget] at h
            cases h.1
        | some w =>
            rw [hget] at h
            exact ⟨w, rfl, h.1⟩
      · exact ih h.2 hp

/-- What an equal object holds is equal to what the other one holds under the same key. -/
lemma eqv_obj_mem (h : (Value.obj items).eqv (.obj others) = true) {p : Text × Value}
    (hp : p ∈ items) : ∃ w, dictGet p.1 others = some w ∧ p.2.eqv w = true := by
  rw [Value.eqv, Bool.and_eq_true] at h
  exact eqvPairs_mem h.2 hp

/-- So is an object it holds. -/
lemma eqv_obj_getValue (h : (Value.obj items).eqv (.obj others) = true) {key : Text}
    {inner : List (Text × Value)} (hget : getValue key items = .obj inner) :
    (Value.obj inner).eqv (getValue key others) = true := by
  cases hfound : dictGet key items with
  | none =>
      rw [getValue, hfound] at hget
      cases hget
  | some v =>
      rw [getValue, hfound] at hget
      obtain rfl : v = .obj inner := hget
      obtain ⟨w, hw, heqv⟩ := eqv_obj_mem h (mem_of_dictGet hfound)
      rwa [getValue, hw]

lemma eqv_str {v : Value} {t : Text} (h : v.eqv (.str t) = true) : v = .str t := by
  cases v with
  | str s =>
      rw [Value.eqv, beq_iff_eq] at h
      rw [h]
  | _ => cases h

end

/-! ## The envelope of an enqueued task -/

/-- Every member of an axis has a provenance, and a true one. -/
def AxisTruthful (m : Machine) (r : Request) (own : List Text) (payload : List (Text × Value))
    (envelope : Envelope) (axis : Text) : Prop :=
  ∃ items names sources, getValue axis envelope = .obj items ∧
    getValue "value" items = .arr (names.map .str) ∧ getValue "source" items = .obj sources ∧
    keysAre sources names = true ∧
    ∀ p ∈ sources, Truthful m r own axis (offered payload axis) p.1 p.2

/-- What an envelope may grant, by what was asked for: each axis is truthful, nothing is written
where nothing was offered unless the sources bear that out, and a tool-less review writes nothing. -/
structure Authority (m : Machine) (r : Request) (readOnlyReview : Bool) (own : List Text)
    (payload : List (Text × Value)) (envelope : Envelope) : Prop where
  axes : ∀ axis ∈ envelopeSetAxes, AxisTruthful m r own payload envelope axis
  silence : offered payload envelopeWriteAxis = [] →
    r.applyShaped = false ∧ r.sourcesNamePaths = false
  review : readOnlyReview = true → offered payload envelopeWriteAxis = []

section
variable {m : Machine} {r : Request} {readOnlyReview : Bool} {payload : List (Text × Value)}
  {axes : List (Text × EnvelopeAxis)} {p : Place} {routing : List (Text × Value)}
  {envelope : Envelope}

/-- What the readback holds of a resolved axis is truthful. -/
lemma Accepted.axisTruthful (h : Accepted m r readOnlyReview payload axes)
    (hvalid : EnvelopeValid envelope)
    (heqv : (Value.obj envelope).eqv (.obj (envelopePayload axes p routing)) = true) {axis : Text}
    (hset : axis ∈ envelopeSetAxes) :
    AxisTruthful m r (engineOwnedWriteTargets p routing) payload envelope axis := by
  have hne : axis ≠ envelopeEnumAxis := ne_policy hset
  obtain ⟨a, raw, quotes, members, hmem, hoffers, -, hresolved⟩ := h.resolved hset
  obtain ⟨state, provenances, hshape, -, -⟩ := hvalid.axes axis (List.mem_append_left _ hset)
  obtain ⟨items, applied, hitems, -, -, -, -, -, hset'⟩ := hshape.shape
  obtain ⟨values, names, sources, hvalue, hnames, -, hsource, hkeys, -⟩ := hset' hne
  rw [stringItems_str hnames] at hvalue
  refine ⟨items, names, sources, hitems, hvalue, hsource, hkeys, fun q hq => ?_⟩
  rw [hoffers.offered]
  have haxis := eqv_obj_getValue heqv hitems
  rw [getValue_envelopePayload h.keys hmem] at haxis
  have hinner := eqv_obj_getValue haxis hsource
  obtain ⟨accepted, haccepted, htruthful⟩ :=
    @Resolved.truthful m r (engineOwnedWriteTargets p routing) axis raw quotes a hresolved hset
  by_cases hwrite : axis = envelopeWriteAxis
  · -- the engine's own targets stand beside the accepted ones, or in their place
    rw [if_pos hwrite] at hinner
    have hsources : (ownedAxis (engineOwnedWriteTargets p routing) a).source =
        .obj (engineSources accepted (engineOwnedWriteTargets p routing)) := by
      rw [ownedAxis, haccepted]
    change (Value.obj sources).eqv (ownedAxis (engineOwnedWriteTargets p routing) a).source =
      true at hinner
    rw [hsources] at hinner
    obtain ⟨w, hw, hqw⟩ := eqv_obj_mem hinner hq
    rcases mem_engineSources (mem_of_dictGet hw) with hold | ⟨hown, hengine⟩
    · have htrue := htruthful _ hold
      have hq2 : q.2 = w := by
        cases htrue <;> exact eqv_str hqw
      rw [hq2]
      exact htrue
    · obtain rfl : w = .str sourceEngine := hengine
      rw [eqv_str hqw]
      exact .engine hwrite hown
  · rw [if_neg hwrite] at hinner
    change (Value.obj sources).eqv a.source = true at hinner
    rw [haccepted] at hinner
    obtain ⟨w, hw, hqw⟩ := eqv_obj_mem hinner hq
    have htrue := htruthful _ (mem_of_dictGet hw)
    have hq2 : q.2 = w := by
      cases htrue <;> exact eqv_str hqw
    rw [hq2]
    exact htrue

/-- Without an offer, the write axis was declared empty. -/
lemma Accepted.silence (h : Accepted m r readOnlyReview payload axes)
    (hnone : offered payload envelopeWriteAxis = []) :
    r.applyShaped = false ∧ r.sourcesNamePaths = false := by
  obtain ⟨a, raw, quotes, members, -, hoffers, -, hresolved⟩ :=
    h.resolved write_mem
  rw [hoffers.offered] at hnone
  cases hresolved with
  | declared hsome hlength hquotes haxis => exact absurd rfl haxis
  | targets targets hsome hlength hquotes haxis htargets =>
      have hzip := congrArg List.length hnone
      rw [List.length_zip, hlength, Nat.min_self, List.length_nil] at hzip
      exact absurd (List.length_eq_zero_iff.mp hzip) hsome
  | noTargets hraw haxis happly hpaths => exact ⟨happly, hpaths⟩
  | ceiling haxis => exact absurd rfl haxis
  | scope haxis hceiling hscope => exact absurd rfl haxis

/-- A tool-less review is offered no write targets. -/
lemma Accepted.offered_review (h : Accepted m r readOnlyReview payload axes)
    (hreview : readOnlyReview = true) : offered payload envelopeWriteAxis = [] := by
  have hgrants := h.review hreview
  obtain ⟨a, raw, quotes, members, -, ⟨items, hitems, hraw, hquotes⟩, -, -⟩ :=
    h.resolved write_mem
  rw [grantsWrites, hitems] at hgrants
  change (getValue "value" items).truthy = false at hgrants
  have hoffers : Offers (getValue envelopeWriteAxis payload) raw quotes :=
    ⟨items, hitems, hraw, hquotes⟩
  rw [hoffers.offered]
  cases hvalue : getValue "value" items with
  | arr values =>
      rw [hvalue] at hgrants hraw
      have hvalues := textItems_map hraw
      cases values with
      | nil =>
          cases raw with
          | nil => rfl
          | cons t raw => cases hvalues
      | cons v values => cases hgrants
  | _ =>
      rw [hvalue] at hraw
      cases hraw

/-- What is read of an input is a valid envelope. -/
lemma valid_of_extractEnvelope {rt : Runtime} {t : Text}
    (h : extractEnvelope rt t = .ok (some envelope)) : EnvelopeValid envelope := by
  obtain ⟨block, -, h⟩ := bind_eq_ok.mp h
  cases block with
  | none => cases h
  | some block =>
      dsimp only at h
      split at h
      · cases h
      · cases h
      · next found _ =>
        cases hfound : validateEnvelope rt found with
        | error e =>
            rw [hfound] at h
            cases h
        | ok e =>
            rw [hfound] at h
            obtain rfl := Option.some.inj (Except.ok.inj h)
            exact (validateEnvelope_eq_ok.mp hfound).2

/-- A written input holds an envelope that equals the payload. -/
lemma writeExecutionInput_reads {task : TaskRecord} {reason input : Text}
    {profile : Except Exc Profile}
    (h : writeExecutionInput m p task routing reason profile axes = .ok input) :
    ∃ envelope, extractEnvelope m.toRuntime input = .ok (some envelope) ∧
      (Value.obj envelope).eqv (.obj (envelopePayload axes p routing)) = true := by
  obtain ⟨routingText, -, h⟩ := bind_eq_ok.mp h
  obtain ⟨_, -, h⟩ := bind_eq_ok.mp h
  obtain ⟨block, -, h⟩ := bind_eq_ok.mp h
  obtain ⟨plan, -, h⟩ := bind_eq_ok.mp h
  obtain ⟨readback, hreadback, h⟩ := bind_eq_ok.mp h
  obtain ⟨_, hequal, h⟩ := bind_eq_ok.mp h
  obtain ⟨_, -, h⟩ := bind_eq_ok.mp h
  obtain rfl := Except.ok.inj h
  cases readback with
  | none => cases hequal
  | some envelope => exact ⟨envelope, hreadback, require_eq_ok.mp hequal⟩

/-- An enqueued input was written for a resolution with axes. -/
lemma enqueued_resolution {s : Surroundings} {task : TaskRecord} {reason input : Text}
    (h : enqueueForRouting m s p task routing reason = .ok (.enqueued input)) :
    ∃ sources profile resolution axes, requirementSources m s.read task = .ok sources ∧
      resolveEnvelope m s.toAnswers sources task (isExternalReview routing) = .ok resolution ∧
      resolution.axes = some axes ∧
      writeExecutionInput m p task routing reason profile axes = .ok input := by
  unfold enqueueForRouting at h
  dsimp only at h
  split at h
  · cases Except.ok.inj h
  · next profile _ =>
    split at h
    · split_ifs at h
      cases Except.ok.inj h
    · split at h
      · cases return_eq_ok.mp h
      · exact absurd h throw_ne_ok
      · next resolution hresolution =>
        obtain ⟨sources, hsources, hresolution⟩ := step_eq_ok.mp hresolution
        split at h
        · cases return_eq_ok.mp h
        · next axes haxes =>
          split at h
          · cases return_eq_ok.mp h
          · exact absurd h throw_ne_ok
          · next written hwritten =>
            obtain ⟨_, -, h⟩ := step_eq_ok.mp h
            cases return_eq_ok.mp h
            exact ⟨sources, profile, resolution, axes, hsources, hresolution, haxes, hwritten⟩

/-- The resolution accepted the resolver's reply. -/
lemma enqueued_cases {s : Surroundings} {task : TaskRecord} {reason input : Text}
    (h : enqueueForRouting m s p task routing reason = .ok (.enqueued input)) :
    ∃ reply sources profile axes candidates, s.invoke = .ok reply ∧
      requirementSources m s.read task = .ok sources ∧
      parseResolverReply m reply (reviewSources sources (isExternalReview routing)) task
        (isExternalReview routing) = .ok (axes, candidates) ∧ unresolvedAxes axes = [] ∧
      writeExecutionInput m p task routing reason profile axes = .ok input := by
  obtain ⟨sources, profile, resolution, axes, hsources, hresolution, haxes, hwritten⟩ :=
    enqueued_resolution h
  obtain ⟨reply, candidates, hreply, hparse, hresolved⟩ :=
    resolveEnvelope_accepts hresolution haxes
  exact ⟨reply, sources, profile, axes, candidates, hreply, hsources, hparse, hresolved, hwritten⟩

/-- The envelope of an enqueued task grants what its sources bear out. -/
theorem enqueued_authority {s : Surroundings} {task : TaskRecord} {reason input : Text}
    (h : enqueueForRouting m s p task routing reason = .ok (.enqueued input)) :
    ∃ reply sources payload envelope, s.invoke = .ok reply ∧
      requirementSources m s.read task = .ok sources ∧ resolverPayload m reply = .ok payload ∧
      extractEnvelope m.toRuntime input = .ok (some envelope) ∧
      Authority m (requestOf m (reviewSources sources (isExternalReview routing)) task
        (isExternalReview routing)) (isExternalReview routing)
        (engineOwnedWriteTargets p routing) payload envelope := by
  obtain ⟨reply, sources, profile, axes, candidates, hreply, hsources, hparse, hresolved, hwrite⟩ :=
    enqueued_cases h
  obtain ⟨payload, hpayload, haccepted⟩ := accepted_of_parse hparse hresolved
  obtain ⟨envelope, hextract, heqv⟩ := writeExecutionInput_reads hwrite
  have hvalid := valid_of_extractEnvelope hextract
  refine ⟨reply, sources, payload, envelope, hreply, hsources, hpayload, hextract, ?_⟩
  exact ⟨fun axis hset => haccepted.axisTruthful hvalid heqv hset, haccepted.silence,
    haccepted.offered_review⟩

end

/-! ### An enqueued task -/

lemma enqueueForRouting_fix : ∃ input, enqueueForRouting asciiMachine fixSurroundings fixPlace
    fixTask fixRouting "auto_start=true" = .ok (.enqueued input) := by
  obtain ⟨resolution, axes, input, hresolution, haxes, hwrite⟩ :=
    @written_fix (.error (.profileError "not loaded"))
  have hread : isExternalReview fixRouting = false := rfl
  have hresolved : (requirementSources asciiMachine fixSurroundings.read fixTask >>= fun sources =>
      resolveEnvelope asciiMachine fixSurroundings.toAnswers sources fixTask false) =
        .ok resolution := by
    have hsources : requirementSources asciiMachine fixSurroundings.read fixTask =
        .ok [(("task text" : Text), fixTask.taskDescription)] := rfl
    exact step_eq_ok.mpr ⟨_, hsources, hresolution⟩
  have hprofile : fixSurroundings.profile = some (.error (.profileError "not loaded")) := rfl
  refine ⟨input, ?_⟩
  unfold enqueueForRouting
  rw [hprofile, hread]
  dsimp only
  rw [if_neg Bool.false_ne_true]
  dsimp only
  rw [hresolved]
  dsimp only
  rw [haxes]
  dsimp only
  rw [hwrite]
  rfl

theorem enqueued_authority_fix : ∃ input payload envelope,
    enqueueForRouting asciiMachine fixSurroundings fixPlace fixTask fixRouting
      "auto_start=true" = .ok (.enqueued input) ∧
    extractEnvelope asciiMachine.toRuntime input = .ok (some envelope) ∧
    Authority asciiMachine (requestOf asciiMachine [("task text", fixTask.taskDescription)] fixTask
      false) false (engineOwnedWriteTargets fixPlace fixRouting) payload envelope := by
  obtain ⟨input, hinput⟩ := enqueueForRouting_fix
  obtain ⟨reply, sources, payload, envelope, -, hsources, -, hextract, hauthority⟩ :=
    enqueued_authority hinput
  obtain rfl := Except.ok.inj hsources
  exact ⟨input, payload, envelope, hinput, hextract, hauthority⟩

end Intake

end AgentOrch
