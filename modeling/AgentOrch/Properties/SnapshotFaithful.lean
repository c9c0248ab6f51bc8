import AgentOrch.Construction.Snapshot
import AgentOrch.Properties.EnvelopeRoundTrip
import AgentOrch.Properties.LoopBudget

/-!
# Snapshots are faithful

What is read back of a profile's snapshot is the profile, its bytes do not depend on the order in
which the profile was written down, and the edges of the profile are the keys of its caps.  So the
counters a task is submitted with are those its stages commit against, one for each outcome, and a
commit never misses one.
-/

namespace AgentOrch

open Py Json

/-! ## Edges -/

/-- The outcomes of a profile, each with its stage. -/
def Profile.outcomePairs (p : Profile) : List (Text × Text) :=
  p.stages.flatMap fun s => s.2.outcomes.map fun o => (s.1, o.1)

section
variable {p : Profile}

lemma mem_outcomePairs {stage outcome : Text} : (stage, outcome) ∈ p.outcomePairs ↔
    ∃ s target, (stage, s) ∈ p.stages ∧ (outcome, target) ∈ s.outcomes := by
  unfold Profile.outcomePairs
  simp only [List.mem_flatMap, List.mem_map]
  constructor
  · rintro ⟨⟨name, s⟩, hs, ⟨o, t⟩, ho, heq⟩
    obtain ⟨rfl, rfl⟩ := Prod.mk.inj heq
    exact ⟨s, t, hs, ho⟩
  · rintro ⟨s, t, hs, ho⟩
    exact ⟨(stage, s), hs, (outcome, t), ho, rfl⟩

/-- No two outcomes share an edge. -/
lemma Profile.WellFormed.edgeId_injOn (h : p.WellFormed) :
    Set.InjOn (fun q : Text × Text => Profile.edgeId q.1 q.2) {q | q ∈ p.outcomePairs} := by
  rintro ⟨s, o⟩ hq ⟨s', o'⟩ hq' heq
  obtain ⟨stage, _, hstage, -⟩ := mem_outcomePairs.mp hq
  obtain ⟨stage', _, hstage', -⟩ := mem_outcomePairs.mp hq'
  obtain ⟨rfl, hwell⟩ := h.named s stage hstage
  obtain ⟨rfl, hwell'⟩ := h.named s' stage' hstage'
  obtain ⟨hs, ho⟩ := edgeId_injective hwell.identifier hwell'.identifier heq
  exact Prod.ext hs ho

/-- And the edges are the keys of the caps. -/
lemma Profile.WellFormed.edgeId_image (h : p.WellFormed) :
    (fun q : Text × Text => Profile.edgeId q.1 q.2) '' {q | q ∈ p.outcomePairs} =
      {e | e ∈ dictKeys p.edgeCaps} := by
  ext e
  simp only [Set.mem_image, Set.mem_ofPred_eq, h.caps_cover e, Profile.edges, List.mem_flatMap,
    List.mem_map]
  constructor
  · rintro ⟨⟨name, outcome⟩, hq, rfl⟩
    obtain ⟨s, target, hs, ho⟩ := mem_outcomePairs.mp hq
    obtain ⟨rfl, -⟩ := h.named name s hs
    exact ⟨(s.name, s), hs, (outcome, target), ho, rfl⟩
  · rintro ⟨⟨name, s⟩, hs, ⟨outcome, target⟩, ho, rfl⟩
    obtain ⟨rfl, -⟩ := h.named name s hs
    exact ⟨(s.name, outcome), mem_outcomePairs.mpr ⟨s, target, hs, ho⟩, rfl⟩

end

/-! ## Counters -/

namespace TaskStore

variable {rt : Runtime} {others : Taken} {s s' : TaskStore}

/-- The rows of `edge_counts` stand for the caps of the profile, in their order. -/
def EdgesSeeded (s : TaskStore) : Prop :=
  s.edgeCounts.map EdgeCount.edge = dictKeys s.profile.edgeCaps

lemma map_edge_bumpEdge (e : Text) :
    (s.bumpEdge e).edgeCounts.map EdgeCount.edge = s.edgeCounts.map EdgeCount.edge := by
  unfold bumpEdge
  rw [List.map_map]
  refine List.map_congr_left fun row _ => ?_
  simp only [Function.comp_apply]
  split_ifs <;> rfl

/-- No transaction adds a counter or takes one away. -/
lemma EdgesSeeded.change {op : Operation} (hinv : s.EdgesSeeded) (h : Change rt others s op s') :
    s'.EdgesSeeded := by
  cases h with
  | follow stamp token result run stage envelope outcome target row edgeCapHit =>
      cases edgeCapHit with
      | true => exact hinv
      | false => exact (map_edge_bumpEdge _).trans hinv
  | resume operationId rerunStage granted =>
      cases granted with
      | none => exact hinv
      | some g => exact (map_edge_bumpEdge _).trans hinv
  | orphan stamp =>
      unfold EdgesSeeded orphaned
      cases s.stageRuns.find? fun r => r.status = .running <;> exact hinv
  | _ => exact hinv

lemma EdgesSeeded.submitted (h : s.Submitted) : s.EdgesSeeded := by
  obtain ⟨others, sub, h⟩ := h
  obtain ⟨-, rfl⟩ := submitTask_eq_ok h
  show (sub.frozen.profile.edgeCaps.map _).map EdgeCount.edge = dictKeys sub.frozen.profile.edgeCaps
  rw [List.map_map]
  rfl

lemma Reachable.edgesSeeded {condition : Condition} (h : s.Reachable rt condition) :
    s.EdgesSeeded :=
  h.preserved (fun _ => EdgesSeeded.submitted) fun hinv _ hchange => hinv.change hchange

/-- Every edge of the profile has one row. -/
lemma EdgesSeeded.one (hinv : s.EdgesSeeded) {stage outcome : Text}
    (h : (stage, outcome) ∈ s.profile.outcomePairs) :
    (s.edgeCounts.filter fun row => row.edge = Profile.edgeId stage outcome).length = 1 := by
  have hwell : s.profile.WellFormed := s.frozen.wellFormed
  have hmem : Profile.edgeId stage outcome ∈ dictKeys s.profile.edgeCaps := by
    have himage : Profile.edgeId stage outcome ∈
        (fun q : Text × Text => Profile.edgeId q.1 q.2) '' {q | q ∈ s.profile.outcomePairs} :=
      ⟨(stage, outcome), h, rfl⟩
    rw [hwell.edgeId_image] at himage
    exact himage
  have hcount : (s.edgeCounts.map EdgeCount.edge).count (Profile.edgeId stage outcome) = 1 := by
    rw [hinv]
    exact List.count_eq_one_of_mem hwell.caps_nodup hmem
  rw [List.count_eq_countP, List.countP_map] at hcount
  rw [← List.countP_eq_length_filter, ← hcount]
  refine List.countP_congr fun row _ => ?_
  simp

end TaskStore

/-! ## The error of a missing counter -/

/-- The error a commit raises when the edge has no counter. -/
def Exc.Unseeded (e : Exc) : Prop :=
  ∃ edge, e = .controllerError ("missing seeded edge counter: " ++ edge)

/-- The computation does not raise it. -/
def Spared {α : Type} (x : Except Exc α) : Prop := ∀ e, x = .error e → ¬ e.Unseeded

section
variable {α β : Type} {x : Except Exc α} {f : α → Except Exc β}

lemma spared_ok (a : α) : Spared (.ok a : Except Exc α) := fun _ h => nomatch h

lemma spared_error {e : Exc} (h : ¬ e.Unseeded) : Spared (.error e : Except Exc α) := by
  rintro e' he
  obtain rfl := Except.error.inj he
  exact h

lemma Spared.bind (hx : Spared x) (hf : ∀ a, x = .ok a → Spared (f a)) : Spared (x >>= f) := by
  intro e he
  rcases bind_eq_error.mp he with h | ⟨a, ha, h⟩
  · exact hx e h
  · exact hf a ha e h

lemma not_unseeded_of_head {m : Text} (h : m.head? ≠ some 0x6D) :
    ¬ (Exc.controllerError m).Unseeded := by
  rintro ⟨edge, heq⟩
  rw [Exc.controllerError.inj heq] at h
  exact h rfl

lemma not_unseeded_of_ne {e : Exc} (h : ∀ m, e ≠ .controllerError m) : ¬ e.Unseeded :=
  fun ⟨_, heq⟩ => h _ heq

lemma spared_require {condition : Bool} {e : Exc} (h : ¬ e.Unseeded) :
    Spared (require condition e) := by
  cases condition with
  | true => exact spared_ok ()
  | false => exact spared_error h

end

/-- Reading an envelope raises no error of the controller. -/
lemma extractEnvelope_spared (rt : Runtime) (text : Text) : Spared (extractEnvelope rt text) := by
  rcases envelopeBlockText_cases text with ⟨hnone, -⟩ | ⟨block, hblock⟩ | ⟨m, hm⟩
  · rw [extractEnvelope, hnone, returned_bind]
    exact spared_ok none
  · rw [extractEnvelope, hblock, returned_bind]
    dsimp only
    split
    · exact spared_error (not_unseeded_of_ne (by rintro m ⟨⟩))
    · next e _ hloads =>
      refine spared_error (not_unseeded_of_ne ?_)
      rintro m rfl
      unfold Runtime.loads at hloads
      split at hloads <;> cases hloads
    · next payload _ =>
      cases hvalid : validateEnvelope rt payload with
      | ok e => exact spared_ok (some e)
      | error e =>
          refine spared_error (not_unseeded_of_ne ?_)
          rintro m rfl
          have hnot : ¬ IsEnvelopeError (validateEnvelope rt payload) := by
            rintro ⟨m', hm'⟩
            rw [hvalid] at hm'
            cases hm'
          rcases validateEnvelope_cases hnot with ⟨items, rfl, h⟩ | hstuck
          · rw [h.validates] at hvalid
            cases hvalid
          · obtain ⟨m', hm'⟩ := hstuck.raises rt
            rw [hvalid] at hm'
            cases hm'
  · have hne : ¬ (Exc.envelopeError m).Unseeded := not_unseeded_of_ne (by rintro m ⟨⟩)
    rw [extractEnvelope, hm]
    exact spared_error hne

namespace TaskStore

variable {rt : Runtime} {others : Taken} {s s' : TaskStore}

lemma bindInt_spared (n : Option ℤ) : Spared (bindInt n) :=
  spared_require (not_unseeded_of_ne fun _ h => nomatch h)

lemma bindText_spared (t : Option Text) : Spared (bindText t) :=
  spared_require (not_unseeded_of_ne fun _ h => nomatch h)

lemma bindRun_spared (result : RunResult) (outcome : Option Text) :
    Spared (bindRun result outcome) :=
  (bindInt_spared _).bind fun _ _ => (bindText_spared _).bind fun _ _ =>
    (bindInt_spared _).bind fun _ _ => (bindText_spared _).bind fun _ _ =>
    (bindInt_spared _).bind fun _ _ => (bindInt_spared _).bind fun _ _ => bindInt_spared _

lemma insertTransition_spared {operationId : Text} {runToken stage : Option Text}
    {owner : Option Owner} {edge outcome : Option Text} {fromStatus : Option Status}
    {toStatus : Status} {reason : Text} : Spared (s.insertTransition others operationId runToken
      stage owner edge outcome fromStatus toStatus reason) :=
  (spared_require (not_unseeded_of_ne (by rintro m ⟨⟩))).bind fun _ _ =>
    (bindText_spared _).bind fun _ _ => spared_ok _

lemma stage_spared (p : Profile) (name : Text) : Spared (p.stage name) := by
  unfold Profile.stage
  split
  · exact spared_ok _
  · exact spared_error (not_unseeded_of_ne fun _ h => nomatch h)

lemma parkRun_spared {stamp : Stamp} {run : StageRun} {stage : Stage} {result : RunResult}
    {manifest : Manifest} {runStatus : RunStatus} {status : Status} {outcome : Option Text}
    {reason : Text} : Spared (s.parkRun others stamp run stage result manifest runStatus status
      outcome reason) :=
  (bindRun_spared _ _).bind fun _ _ => insertTransition_spared.bind fun _ _ =>
    (spared_require (not_unseeded_of_head (by decide))).bind fun _ _ => spared_ok _

/-- Along an edge the profile has, the counter is there. -/
lemma followEdge_spared {stamp : Stamp} {run : StageRun} {stage : Stage} {result : RunResult}
    {manifest : Manifest} {outcome : Text} {present : Bool} (hcounts : s.CountsLog)
    (hstage : s.profile.stage stage.name = .ok stage) :
    Spared (s.followEdge others stamp run stage result manifest outcome present) := by
  unfold followEdge
  cases hleads : dictGet outcome stage.outcomes with
  | none => exact spared_error (not_unseeded_of_ne fun _ h => nomatch h)
  | some targetName =>
      refine (stage_spared _ _).bind fun target _ => ?_
      have hwell : s.profile.WellFormed := s.frozen.wellFormed
      have hedge : Profile.edgeId stage.name outcome ∈ s.profile.edges :=
        List.mem_flatMap.mpr ⟨_, mem_of_dictGet (Profile.stage_eq_ok.mp hstage),
          List.mem_map.mpr ⟨(outcome, targetName), mem_of_dictGet hleads, rfl⟩⟩
      obtain ⟨cap, hcap⟩ := Option.isSome_iff_exists.mp
        (dictGet_isSome.mpr ((hwell.caps_cover _).mpr hedge))
      have hseeded := hcounts.seeded (Profile.edgeId stage.name outcome)
      rw [hcap] at hseeded
      obtain ⟨row, hrow, -⟩ := Option.map_eq_some_iff.mp hseeded
      dsimp only
      rw [hrow]
      exact (bindRun_spared _ _).bind fun _ _ => insertTransition_spared.bind fun _ _ =>
        (spared_require (not_unseeded_of_head (by decide))).bind fun _ _ => spared_ok _

/-- A commit never misses a counter. -/
lemma commitRun_spared {stamp : Stamp} {token : Text} {result : RunResult}
    (hcounts : s.CountsLog) : Spared (s.commitRun rt others stamp token result) := by
  unfold commitRun
  cases s.findRun token with
  | none => exact spared_error (not_unseeded_of_head (by decide))
  | some run =>
      refine (spared_require (not_unseeded_of_head (by decide))).bind fun _ _ => ?_
      refine (spared_require (not_unseeded_of_head (by decide))).bind fun _ _ => ?_
      refine (stage_spared _ _).bind fun stage hstage => ?_
      refine Spared.bind ?_ fun manifest _ => ?_
      · unfold sealRunManifest
        split
        · next e _ =>
          have hhead : (("refusing to seal contradictory boundary metadata: " : Text) ++
              e.message).head? = some 0x72 := rfl
          refine spared_error (not_unseeded_of_head ?_)
          rw [hhead]
          decide
        · refine Spared.bind ?_ fun _ _ => spared_ok _
          unfold Runtime.dumps
          split_ifs
          · exact spared_error (not_unseeded_of_ne (by rintro m ⟨⟩))
          · exact spared_ok ()
          · exact spared_error (not_unseeded_of_ne (by rintro m ⟨⟩))
      · split_ifs
        · split
          · exact spared_error (not_unseeded_of_ne (by rintro m ⟨⟩))
          · refine Spared.bind ?_ fun envelope _ => ?_
            · unfold envelopeForTask
              split
              · exact spared_error (not_unseeded_of_ne (by rintro m ⟨⟩))
              · exact extractEnvelope_spared rt _
            · split_ifs
              · exact parkRun_spared
              · exact followEdge_spared hcounts (by rw [stage_name hstage]; exact hstage)
        · split
          · exact spared_error (not_unseeded_of_ne (by rintro m ⟨⟩))
          · exact parkRun_spared

end TaskStore

/-! ## The snapshot and the counters -/

/-- The snapshot of the profile is written, it reads back as an equal profile, whose snapshot has
the same bytes, whatever `hash` names them by. -/
def Profile.SnapshotReads (rt : Runtime) (p : Profile) : Prop :=
  ∃ bytes p', Kanban.canonicalJson rt p.toDict = .ok bytes ∧
    (∀ hash, profileFromSnapshot rt hash bytes (hash bytes) = .ok p') ∧ p'.equals p = true ∧
    Kanban.canonicalJson rt p'.toDict = .ok bytes

/-- No two outcomes share an edge, and the edges are the keys of the caps. -/
structure Profile.EdgesNamed (p : Profile) : Prop where
  injective : Set.InjOn (fun q : Text × Text => Profile.edgeId q.1 q.2) {q | q ∈ p.outcomePairs}
  image : (fun q : Text × Text => Profile.edgeId q.1 q.2) '' {q | q ∈ p.outcomePairs} =
    {e | e ∈ dictKeys p.edgeCaps}

/-- Every outcome has one counter, and no commit misses it. -/
structure TaskStore.Counted (rt : Runtime) (s : TaskStore) : Prop where
  one : ∀ stage outcome, (stage, outcome) ∈ s.profile.outcomePairs →
    (s.edgeCounts.filter fun row => row.edge = Profile.edgeId stage outcome).length = 1
  found : ∀ others stamp token result edge, s.commitRun rt others stamp token result ≠
    .error (.controllerError ("missing seeded edge counter: " ++ edge))

lemma Profile.Normal.snapshotReads {rt : Runtime} {p : Profile} (h : p.Normal)
    (hloads : 4 ≤ rt.loadsDepth) (hdumps : 4 ≤ rt.dumpsDepth)
    (hshort : p.toDict.shortInts = true) (hclean : p.toDict.encodable = true) :
    p.SnapshotReads rt := by
  obtain ⟨t, bytes, ht, hbytes, hwritten⟩ := h.toWellFormed.canonicalJson hdumps hshort hclean
  refine ⟨bytes, p.sorted, hwritten, ?_, h.toWellFormed.sorted_equals, ?_⟩
  · intro hash
    rw [profileFromSnapshot, decide_eq_true rfl, require_true_bind,
      h.toWellFormed.loadsBytes hloads ht hbytes]
    exact h.validates
  · rw [← hwritten]
    unfold Kanban.canonicalJson Kanban.canonicalText dumpsPadded
    rw [p.toDict_sorted]

/-- The snapshot of every accepted profile whose integers have a text is faithful, its edges are the
keys of its caps, and in every database every outcome a stage can commit has its one counter. -/
theorem snapshot_faithful (rt : Runtime) (hloads : 4 ≤ rt.loadsDepth) (hdumps : 4 ≤ rt.dumpsDepth) :
    (∀ data p, validateProfile data = .ok p → p.toDict.shortInts = true →
      p.toDict.encodable = true → p.SnapshotReads rt) ∧
    (∀ data p, validateProfile data = .ok p → p.EdgesNamed) ∧
    ∀ condition db id s, Db.Reachable rt condition db → dictGet id db = some s → s.Counted rt := by
  refine ⟨?_, ?_, ?_⟩
  · intro data p h hshort hclean
    exact (validateProfile_normal h).snapshotReads hloads hdumps hshort hclean
  · intro data p h
    have hwell := validateProfile_wellFormed h
    exact ⟨hwell.edgeId_injOn, hwell.edgeId_image⟩
  · intro condition db id s hdb hs
    have hreachable := hdb.task hs
    refine ⟨fun stage outcome h => hreachable.edgesSeeded.one h, ?_⟩
    intro others stamp token result edge h
    exact TaskStore.commitRun_spared hreachable.countsLog _ h ⟨edge, rfl⟩

/-! ## A sample, and an integer without a text -/

/-- The profile of a stop-gate review. -/
def sampleGate : Profile := stopGateClaude "Review the work."

lemma validateProfile_sampleGate : validateProfile sampleGate.toDict = .ok sampleGate := by
  have hvalid : (match validateProfile sampleGate.toDict with
      | .ok p => decide (p = sampleGate)
      | .error _ => false) = true := by decide
  cases h : validateProfile sampleGate.toDict with
  | error e =>
      rw [h] at hvalid
      cases hvalid
  | ok p =>
      rw [h] at hvalid
      rw [of_decide_eq_true hvalid]

theorem snapshot_faithful_sampleGate : sampleGate.SnapshotReads .standard ∧
    sampleGate.EdgesNamed ∧ (draftTask []).Counted .standard := by
  obtain ⟨hreads, hedges, hcounted⟩ := snapshot_faithful .standard (by decide) (by decide)
  refine ⟨hreads _ _ validateProfile_sampleGate (by decide) (by decide),
    hedges _ _ validateProfile_sampleGate, ?_⟩
  exact hcounted anything [("task", draftTask [])] "task" _
    (Db.reachable_submitted "task" (submitTask_draft [])) rfl

/-- The sample with another transition cap. -/
def cappedGate (n : ℕ) : Profile := { sampleGate with maxTransitions := n }

lemma cappedGate_normal {n : ℕ} (h : 0 < n) : (cappedGate n).Normal := by
  have hsample := validateProfile_normal validateProfile_sampleGate
  exact { hsample with max_pos := h }

lemma shortInt_pow : shortInt ((10 ^ 4300 : ℕ) : ℤ) = false := by
  have hlength : ¬ (Nat.toDigits 10 (10 ^ 4300)).length ≤ 4300 := by
    rw [Nat.length_toDigits_le_iff (by decide) (by decide)]
    exact Nat.lt_irrefl _
  rw [shortInt, decide_eq_false_iff_not, Int.natAbs_natCast, natText, List.length_map]
  exact hlength

lemma cappedGate_encodable (n : ℕ) : (cappedGate n).sorted.toDict.encodable = true := rfl

/-- A profile whose transition cap has no text has no snapshot. -/
lemma cappedGate_unwritten {n : ℕ} (h : shortInt n = false) (bytes : Bytes) :
    Kanban.canonicalJson .standard (cappedGate n).sorted.toDict ≠ .ok bytes := by
  intro hwritten
  unfold Kanban.canonicalJson Kanban.canonicalText dumpsPadded at hwritten
  rw [Profile.toDict_sorted] at hwritten
  cases hrefusal : (cappedGate n).toDict.sortKeys.lenientRefusal Runtime.standard.dumpsDepth with
  | some e =>
      rw [hrefusal] at hwritten
      cases hwritten
  | none =>
      have hshort := shortInts_of_lenientRefusal hrefusal
      have hdict : (cappedGate n).toDict = .obj (cappedGate n).items := rfl
      rw [hdict, sortKeys_obj] at hshort
      have hmem : (("max_transitions" : Text), Value.int n) ∈ sortedItems (cappedGate n).items := by
        rw [sortedItems_eq, mem_sortedDict]
        exact List.mem_map.mpr ⟨("max_transitions", .int n),
          by simp [Profile.items, cappedGate], rfl⟩
      have hcap : shortInt n = true := shortIntsPairs_iff.mp hshort _ hmem
      rw [h] at hcap
      cases hcap

/-- A transition cap of 4301 digits is accepted, and has no snapshot. -/
theorem not_snapshot_faithful : ¬ ∀ data p, validateProfile data = .ok p →
    p.toDict.encodable = true → p.SnapshotReads .standard := by
  intro hall
  have hnormal : (cappedGate (10 ^ 4300)).Normal := cappedGate_normal (Nat.pow_pos (by decide))
  obtain ⟨bytes, -, hwritten, -⟩ := hall _ _ hnormal.validates (cappedGate_encodable _)
  exact cappedGate_unwritten shortInt_pow bytes hwritten

end AgentOrch
