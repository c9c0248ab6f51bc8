import AgentOrch.Framework.Phases
import AgentOrch.Properties.Iteration
import AgentOrch.Properties.SealedRecords

/-!
# A call of the run loop ends

For an envelope task whose profile can score its own loops the caps only observe, so nothing but
the convergence gate ends a loop.  Every iteration that lets the loop go on commits one run and
moves along an edge of the profile; a branching run goes on only if its record was accepted, and
with a baseline only if it improves on it.  Between two corrections the walk is short because the
profile has no cycle without a correction, or without a branching stage; and from one correction
phase to the next the live set shrinks.
-/

namespace AgentOrch

open Py Json

namespace TaskStore

variable {rt : Runtime} {others : Taken} {s s' : TaskStore}

/-! ## The baseline after a correction -/

lemma arityRuns_append {p : Profile} {a : Arity} {k : ℕ} (xs ys : List HistoryRun) :
    arityRuns p a k (xs ++ ys) = arityRuns p a k xs ++ arityRuns p a (k + xs.length) ys := by
  unfold arityRuns
  rw [List.zipIdx_append, List.filter_append, List.map_append]

lemma arityRuns_cons {p : Profile} {a : Arity} {k : ℕ} (x : HistoryRun) (xs : List HistoryRun) :
    arityRuns p a k (x :: xs) =
      (if p.stageArity x.stage = a then [(k, x.run)] else []) ++ arityRuns p a (k + 1) xs := by
  unfold arityRuns
  rw [List.zipIdx_cons, List.filter_cons]
  split_ifs with h1 h2 h2 <;> simp_all

lemma arityRuns_eq_nil {p : Profile} {a : Arity} {k : ℕ} {runs : List HistoryRun}
    (h : ∀ x ∈ runs, p.stageArity x.stage ≠ a) : arityRuns p a k runs = [] := by
  induction runs generalizing k with
  | nil => rfl
  | cons x xs ih =>
      rw [arityRuns_cons, if_neg (h x List.mem_cons_self),
        ih fun y hy => h y (List.mem_cons_of_mem x hy)]
      rfl

lemma le_of_mem_arityRuns {p : Profile} {a : Arity} {k : ℕ} {runs : List HistoryRun}
    {r : ℕ × StageRun} (h : r ∈ arityRuns p a k runs) : k ≤ r.1 ∧ r.1 < k + runs.length := by
  unfold arityRuns at h
  obtain ⟨⟨entry, index⟩, hentry, rfl⟩ := List.mem_map.mp h
  have hmem := List.mem_zipIdx (List.mem_of_mem_filter hentry)
  exact ⟨hmem.1, hmem.2.1⟩

/-- After a branching run with a record, some corrections, and maybe more branching runs, the
baseline is that record: the later records have no correction after them. -/
lemma baseline_after_corrections (before : List HistoryRun) {cs bs : List HistoryRun}
    {b : HistoryRun} {record : ConvergenceRecord}
    (hb : s.profile.stageArity b.stage = .branching) (hcs : cs ≠ [])
    (hcorrections : ∀ c ∈ cs, s.profile.stageArity c.stage = .correction)
    (hbranching : ∀ x ∈ bs, s.profile.stageArity x.stage = .branching)
    (hrecord : s.sealedRecord rt b.run = .ok record) :
    s.baseline rt (before ++ b :: (cs ++ bs)) = some (before.length, record) := by
  have hcs_none : ∀ k, arityRuns s.profile .branching k cs = [] := fun k =>
    arityRuns_eq_nil fun c hc => by simp [hcorrections c hc]
  have hbs_none : ∀ k, arityRuns s.profile .correction k bs = [] := fun k =>
    arityRuns_eq_nil fun x hx => by simp [hbranching x hx]
  have hb_none : s.profile.stageArity b.stage ≠ .correction := by simp [hb]
  have hruns : arityRuns s.profile .branching 0 (before ++ b :: (cs ++ bs)) =
      arityRuns s.profile .branching 0 before ++
        (before.length, b.run) :: arityRuns s.profile .branching
          (before.length + 1 + cs.length) bs := by
    rw [arityRuns_append, arityRuns_cons, if_pos hb, arityRuns_append, hcs_none]
    simp
  set corrections := (arityRuns s.profile .correction 0 (before ++ b :: (cs ++ bs))).map Prod.fst
    with hcorrs
  have hcors : arityRuns s.profile .correction 0 (before ++ b :: (cs ++ bs)) =
      arityRuns s.profile .correction 0 before ++
        arityRuns s.profile .correction (before.length + 1) cs := by
    rw [arityRuns_append, arityRuns_cons, if_neg hb_none, arityRuns_append, hbs_none]
    simp
  have hafter : ∀ k ∈ corrections, k < before.length + 1 + cs.length := by
    intro k hk
    obtain ⟨r, hr, rfl⟩ := List.mem_map.mp hk
    rw [hcors, List.mem_append] at hr
    rcases hr with hr | hr
    · have := (le_of_mem_arityRuns hr).2
      omega
    · exact (le_of_mem_arityRuns hr).2
  have hsome : ∃ k ∈ corrections, before.length < k := by
    obtain ⟨c, cs', rfl⟩ := List.exists_cons_of_ne_nil hcs
    refine ⟨before.length + 1, List.mem_map.mpr ⟨(before.length + 1, c.run), ?_, rfl⟩, by omega⟩
    rw [hcors, arityRuns_cons, if_pos (hcorrections c List.mem_cons_self)]
    simp
  have hlate : ∀ r ∈ s.readableRecords rt (arityRuns s.profile .branching
      (before.length + 1 + cs.length) bs),
      corrections.any (r.1 < ·) = false := by
    rintro ⟨index, r⟩ hr
    obtain ⟨run, hrun, -⟩ := mem_readableRecords.mp hr
    have hle := (le_of_mem_arityRuns hrun).1
    refine List.any_eq_false.mpr fun k hk => ?_
    have := hafter k hk
    simp only [decide_eq_true_eq]
    omega
  have hbase : corrections.any (before.length < ·) = true := by
    obtain ⟨k, hk, hlt⟩ := hsome
    exact List.any_eq_true.mpr ⟨k, hk, by simpa using hlt⟩
  have hnone : (s.readableRecords rt (arityRuns s.profile .branching
      (before.length + 1 + cs.length) bs)).filter
      (fun r => corrections.any (r.1 < ·)) = [] :=
    List.filter_eq_nil_iff.mpr fun r hr => by simp [hlate r hr]
  unfold baseline ConvergenceContext.select
  rw [hruns, readableRecords_append, readableRecords_cons, hrecord, List.filter_append,
    List.filter_append, hnone, List.append_nil]
  have hthis : [(before.length, record)].filter
      (fun r => corrections.any (r.1 < ·)) = [(before.length, record)] := by
    rw [List.filter_singleton, hbase, cond_true]
  exact (congrArg (fun tail => List.getLast? (_ ++ tail)) hthis).trans List.getLast?_concat

/-! ## An iteration that goes on -/

/-- An iteration after which the loop goes on: it committed a run and left the task queued. -/
def Continues (rt : Runtime) (s s' : TaskStore) : Prop :=
  ∃ others it, (∀ raw, it.provider = .returned raw → raw.Decoded) ∧
    (s.iterate rt others it).2 = .ok (.next s') ∧ s'.task.status = .queued

/-- A branching run that goes on filed a record that reads back, and it improves on the baseline
there was. -/
structure FiledRecord (rt : Runtime) (s s' : TaskStore) (run : StageRun)
    (record : ConvergenceRecord) : Prop where
  sealed_ : s'.sealedRecord rt run = .ok record
  through : ∀ r ∈ s.runsOfArity .branching,
    (∃ record, s.sealedRecord rt r.2 = .ok record) ∨ s.Skipped rt r.2
  improves : ∀ index prior, s.baseline rt s.committedRunHistory = some (index, prior) →
    Improves record.live prior.live

/-- What an iteration that goes on does to an envelope task. -/
structure Advance (rt : Runtime) (s s' : TaskStore) (run : StageRun) : Prop where
  frozen : s'.frozen = s.frozen
  input : s'.input = s.input
  damaged : s'.damaged = s.damaged
  moves : s'.task.currentStage ∈ s.profile.successors s.task.currentStage
  working : s.profile.stageArity s.task.currentStage = .branching ∨
    s.profile.stageArity s.task.currentStage = .correction
  history : s'.committedRunHistory = s.committedRunHistory ++ [⟨s.task.currentStage, run⟩]
  filed : s.profile.stageArity s.task.currentStage = .branching →
    ∃ record, FiledRecord rt s s' run record

/-- A run that was just sealed from an accepted record reads that record back. -/
lemma sealedRecord_settled {allowed : List Text} {context : ConvergenceContext}
    {raw classified scored result : RunResult} {run : StageRun} {record : ConvergenceRecord}
    (hraw : raw.Decoded) (hsettles : Settles rt allowed (some context) raw classified scored)
    (haccepts : Accepts rt context classified record)
    (hresult : result = reviewerOverride scored) (hrun : run.manifest = some (manifestOf result))
    (hvalid : (manifestOf result).validBoundary = .ok ()) (hintact : run.runToken ∉ s.damaged) :
    s.sealedRecord rt run = .ok record := by
  obtain ⟨htext, -, herror⟩ := reviewerOverride_keeps scored
  obtain ⟨hclassified, hsame, -⟩ := hsettles.text_eq
  obtain ⟨hchannel, -, hcontained⟩ := hsettles.channel haccepts.success
  have hresultText : result.authoritativeText = raw.authoritativeText := by
    rw [hresult, htext, hsame]
  have hread := readSealedRun_of_sealed hrun hvalid hintact
    (by rw [hresult, herror, hchannel]) (by rw [hresultText]; exact hsettles.encodable hraw hcontained)
  have hextract := (extractConvergence_reread haccepts.extracted).1
  refine bind_eq_ok.mpr ⟨_, hread, ?_⟩
  rw [hresultText, ← hclassified]
  exact hextract

/-- A commit that leaves the task queued followed an edge, under its cap, to a working stage, with a
success that is no hold. -/
lemma Change.queued {stamp : Stamp} {token : Text} {result : RunResult}
    (h : Change rt others s (.commit stamp token result) s') (hqueued : s'.task.status = .queued) :
    ∃ run stage outcome target, Committable rt s token result run stage ∧
      result.classification = .success ∧ result.outcome ≠ some holdOutcome ∧
      dictGet outcome stage.outcomes = some target.name ∧
      s' = s.followed stamp run stage result outcome target false := by
  cases h with
  | park stamp token result run stage runStatus status outcome reason hcommit hcase =>
      have hstatus : status = .queued := hqueued
      cases hcase with
      | hold => cases hstatus
      | stopped _ _ hparked =>
          cases hclass : result.classification <;> rw [hclass] at hparked <;> cases hparked <;>
            cases hstatus
  | follow stamp token result run stage envelope outcome target row edgeCapHit hcommit hsuccess
      houtcome henvelope hhold hedge =>
      have hstatus : (edgeStatus edgeCapHit outcome target).1 = .queued := hqueued
      unfold edgeStatus at hstatus
      cases edgeCapHit with
      | true => cases hstatus
      | false =>
          simp only [Bool.false_eq_true, if_false] at hstatus
          by_cases hheld : outcome = holdOutcome
          · rw [if_pos hheld] at hstatus
            cases hstatus
          · refine ⟨run, stage, outcome, target, hcommit, hsuccess, ?_, hedge.leads, rfl⟩
            rw [houtcome]
            exact fun h => hheld (Option.some.inj h)

/-- An iteration that goes on advances an envelope task. -/
theorem Continues.advance {envelope : Envelope} (h : Continues rt s s')
    (henvelope : s.envelopeForTask rt = .ok (some envelope)) (hnames : s.RowsNamed)
    (hlease : s.LeaseHeld) : ∃ run, Advance rt s s' run := by
  obtain ⟨others, it, hdecoded, hnext, hqueued'⟩ := h
  obtain ⟨stage, model, s₁, hqueued, hstage, hclaim, hrun⟩ := iterate_next hnext
  obtain ⟨stage', envelope', hable, ⟨reason, hstopped, -⟩ | ⟨hclaimed, hcap, hinsert⟩⟩ :=
    claimStage_eq_ok hclaim
  · cases hstopped
  obtain rfl : stage' = stage := Except.ok.inj (hable.current.symm.trans hstage)
  obtain rfl := Claim.claimed.inj hclaimed
  have hname : stage'.name = s.task.currentStage := stage_name hable.current
  -- the claim changes neither the history nor what is read
  have hclaims := Change.claim it.claim model stage' envelope' hable hcap hinsert
  have hnames₁ := hnames.change hlease hclaims
  have hlease₁ := hlease.change hclaims
  have hhistory₁ := hnames.history_kept hlease hclaims (by simp)
  set s₁ := s.claimedBy it.claim stage' model with hs₁
  have hstage₁ : s₁.task.currentStage = s.task.currentStage := rfl
  have hdamaged₁ : s₁.damaged = s.damaged := rfl
  have hfrozen₁ : s₁.frozen = s.frozen := rfl
  obtain ⟨envelope'', context, classified, scored, hextract, hcontext, hsettles, hcommits⟩ :=
    runClaimed_next hrun
  have hinput₁ : s₁.inputText = s.inputText := rfl
  rw [hinput₁, extractEnvelope_inputText henvelope] at hextract
  obtain rfl := Except.ok.inj hextract
  have hchange := commitRun_change hcommits
  obtain ⟨run, stage, outcome, target, hcommit, hsuccess, hgoes, hleads, hs'⟩ :=
    hchange.queued hqueued'
  have hstage' : stage.name = s.task.currentStage := hcommit.stage_eq hnames₁
  have hprofile : s.profile.stage stage.name = .ok stage := by
    have hcurrent := hcommit.current
    rwa [← stage_name hcommit.current] at hcurrent
  have hscored := reviewerOverride_success hsuccess
  subst hs'
  have hnames' := hnames₁.change hlease₁ hchange
  refine ⟨settledRun (reviewerOverride scored) (manifestOf (reviewerOverride scored)) .committed
    outcome it.commit.now run, rfl, rfl, rfl, ?_, ?_, ?_, ?_⟩
  · rw [← hstage']
    exact (reachable_target hprofile hleads (hstage' ▸ hnames.current)).1
  · exact Profile.stageArity_of_working s.frozen.wellFormed hable.current hable.working
  · rw [hnames₁.history_followed hcommit hnames', hhistory₁, hstage']
  · intro hbranching
    have hcontext : s₁.convergenceContext rt stage'.name = .ok context := hcontext
    obtain ⟨context, rfl⟩ := convergenceContext_branching hcontext (by rw [hname]; exact hbranching)
    have happlied : applyConvergence rt classified context = .ok scored := hsettles.scores
    rw [hscored] at hsuccess hgoes
    obtain ⟨rfl, record, haccepts, himproves⟩ :=
      accepts_of_applyConvergence happlied hsuccess hgoes
    obtain ⟨hthrough, hselected⟩ := convergenceContext_ok hcontext haccepts.unbroken
    obtain ⟨-, hall⟩ := sealedConvergenceRecords_ok.mp hthrough
    rw [runsOfArity_congr hhistory₁ hfrozen₁] at hall
    rw [runsOfArity_congr hhistory₁ hfrozen₁, runsOfArity_congr hhistory₁ hfrozen₁,
      readableRecords_congr hdamaged₁] at hselected
    have hraw : it.provider.raw.Decoded := by
      cases hprovider : it.provider with
      | returned raw => exact hdecoded raw hprovider
      | raised message =>
          have hexit := (hsettles.channel haccepts.success).2.1
          rw [hprovider] at hexit
          cases hexit
    have hmem := mem_runTokens_of_findRun hcommit.find
    refine ⟨record, ?_, fun r hr => ?_, fun index prior hprior => ?_⟩
    · refine sealedRecord_settled hraw hsettles haccepts rfl rfl
        (sealRunManifest_ok.mp hcommit.sealed_).2.1 fun hdamaged => ?_
      obtain ⟨r, hr, htoken, hover⟩ := hnames₁.damaged run.runToken hdamaged
      rw [List.inj_on_of_nodup_map hnames₁.nodup hr hmem.1 htoken] at hover
      exact hover hcommit.run_running
    · rcases hall r hr with ⟨record, hrecord⟩ | hskipped
      · exact .inl ⟨record, by rwa [sealedRecord_congr hdamaged₁] at hrecord⟩
      · exact .inr ((skipped_congr hdamaged₁ r.2).mp hskipped)
    · have hprior : ConvergenceContext.select (s.readableRecords rt (s.runsOfArity .branching))
          ((s.runsOfArity .correction).map Prod.fst) = some (index, prior) := hprior
      rw [hselected, ConvergenceContext.ofRecords_select hprior] at himproves
      exact himproves rfl

/-! ## Calls -/

/-- A call of `run_until_stop` that has not ended yet, with the runs it committed. -/
inductive Call (rt : Runtime) (s₀ : TaskStore) : List HistoryRun → TaskStore → Prop
  | start : Call rt s₀ [] s₀
  | next {trace : List HistoryRun} {s s' : TaskStore} {h : HistoryRun} (hcall : Call rt s₀ trace s)
      (hnext : Continues rt s s')
      (hadds : s'.committedRunHistory = s.committedRunHistory ++ [h]) :
      Call rt s₀ (trace ++ [h]) s'

/-- An iteration is a claim and a commit. -/
lemma Continues.reachable (h : Continues rt s s') (hs : s.Reachable rt anything) :
    s'.Reachable rt anything := by
  obtain ⟨others, it, hdecoded, hnext, -⟩ := h
  obtain ⟨s₁, op, op', -, hperform, -, hperform'⟩ := iterate_next_steps hnext hdecoded
  exact (hs.step ⟨others, op, trivial, hperform⟩).step ⟨others, op', trivial, hperform'⟩

/-- What a call keeps, and what it committed. -/
structure CallInv (rt : Runtime) (s₀ : TaskStore) (trace : List HistoryRun) (s : TaskStore) :
    Prop where
  reachable : s.Reachable rt anything
  frozen : s.frozen = s₀.frozen
  input : s.input = s₀.input
  damaged : s.damaged = s₀.damaged
  history : s.committedRunHistory = s₀.committedRunHistory ++ trace
  walk : (trace.map HistoryRun.stage ++ [s.task.currentStage]).IsChain
    fun u v => v ∈ s₀.profile.successors u
  reaches : ∀ h ∈ trace, h.stage ∈ s₀.profile.reachableStages
  working : ∀ h ∈ trace, s₀.profile.stageArity h.stage = .branching ∨
    s₀.profile.stageArity h.stage = .correction
  improves : ∀ pre e post, trace = pre ++ e :: post →
    s₀.profile.stageArity e.stage = .branching → ∃ record, s₀.sealedRecord rt e.run = .ok record ∧
      ∀ index prior, s₀.baseline rt (s₀.committedRunHistory ++ pre) = some (index, prior) →
        Improves record.live prior.live

/-- One more iteration keeps what a call keeps. -/
lemma CallInv.next {s₀ : TaskStore} {trace : List HistoryRun} {h : HistoryRun}
    {envelope : Envelope} (henvelope : s₀.envelopeForTask rt = .ok (some envelope))
    (hinv : CallInv rt s₀ trace s) (hnext : Continues rt s s')
    (hadds : s'.committedRunHistory = s.committedRunHistory ++ [h]) :
    CallInv rt s₀ (trace ++ [h]) s' := by
  have hreads : s.envelopeForTask rt = .ok (some envelope) := by
    unfold envelopeForTask at henvelope ⊢
    rw [hinv.input]
    exact henvelope
  obtain ⟨run, hadvance⟩ := hnext.advance hreads hinv.reachable.rowsNamed hinv.reachable.leaseHeld
  have hprofile : s.profile = s₀.profile := by rw [profile, profile, hinv.frozen]
  have hh : h = ⟨s.task.currentStage, run⟩ := by
    have hsame := hadds.symm.trans hadvance.history
    simpa using List.append_cancel_left hsame
  have hdamaged' : s'.damaged = s₀.damaged := hadvance.damaged.trans hinv.damaged
  have hstage : h.stage = s.task.currentStage := by rw [hh]
  have hfiled : s₀.profile.stageArity h.stage = .branching →
      ∃ record, FiledRecord rt s s' h.run record := by
    rw [hstage, hh, ← hprofile]
    exact hadvance.filed
  refine ⟨hnext.reachable hinv.reachable, hadvance.frozen.trans hinv.frozen,
    hadvance.input.trans hinv.input, hdamaged', ?_, ?_, ?_, ?_, ?_⟩
  · rw [hadds, hinv.history, List.append_assoc]
  · rw [List.map_append, List.map_cons, List.map_nil, hstage]
    refine List.isChain_append.mpr ⟨hinv.walk, List.isChain_singleton _, fun x hx y hy => ?_⟩
    obtain rfl : s.task.currentStage = x := by simpa using hx
    obtain rfl : s'.task.currentStage = y := by simpa using hy
    rw [← hprofile]
    exact hadvance.moves
  · intro x hx
    rcases List.mem_append.mp hx with hx | hx
    · exact hinv.reaches x hx
    · rw [List.mem_singleton.mp hx, hstage, ← hprofile]
      exact hinv.reachable.rowsNamed.current
  · intro x hx
    rcases List.mem_append.mp hx with hx | hx
    · exact hinv.working x hx
    · rw [List.mem_singleton.mp hx, hstage, ← hprofile]
      exact hadvance.working
  · intro pre e post hsplit he
    rcases List.eq_nil_or_concat post with rfl | ⟨post, last, rfl⟩
    · obtain ⟨htrace, hlast⟩ := List.append_inj' hsplit rfl
      obtain rfl : h = e := by simpa using hlast
      obtain ⟨record, hrecord⟩ := hfiled he
      refine ⟨record, by rw [← sealedRecord_congr hdamaged']; exact hrecord.sealed_, ?_⟩
      intro index prior hprior
      refine hrecord.improves index prior ?_
      rwa [baseline_congr hinv.frozen hinv.damaged, hinv.history, htrace]
    · have hsplit : trace ++ [h] = (pre ++ e :: post) ++ [last] := by
        rw [hsplit]
        simp
      exact hinv.improves pre e post (List.append_inj' hsplit rfl).1 he

lemma Call.inv {s₀ : TaskStore} {trace : List HistoryRun} {envelope : Envelope}
    (henvelope : s₀.envelopeForTask rt = .ok (some envelope)) (hs₀ : s₀.Reachable rt anything)
    (h : Call rt s₀ trace s) : CallInv rt s₀ trace s := by
  induction h with
  | start =>
      refine ⟨hs₀, rfl, rfl, rfl, by simp, List.isChain_singleton _, by simp, by simp, ?_⟩
      intro pre e post hsplit
      simp at hsplit
  | next hcall hnext hadds ih => exact ih.next henvelope hnext hadds

/-! ## The bound -/

/-- The number of distinct live identities of the record a run filed, if it reads back. -/
def liveCount (rt : Runtime) (s : TaskStore) (h : HistoryRun) : ℕ :=
  match s.sealedRecord rt h.run with
  | .ok record => record.live.toFinset.card
  | .error _ => 0

/-- A run of a branching stage. -/
def isBranching (s : TaskStore) (h : HistoryRun) : Bool :=
  s.profile.stageArity h.stage = .branching

/-- A stretch of a call without corrections, or without branching runs, is a walk that visits no
stage twice. -/
lemma CallInv.short {s₀ : TaskStore} {trace seg : List HistoryRun} (hinv : CallInv rt s₀ trace s)
    (hgate : s₀.profile.gateReachable = true) (hseg : seg <:+: trace) {a : Arity}
    (ha : a = .correction ∨ a = .branching)
    (hfree : ∀ h ∈ seg, s₀.profile.stageArity h.stage ≠ a) :
    seg.length ≤ s₀.profile.stages.length := by
  have hchain : (seg.map HistoryRun.stage).IsChain fun u v => v ∈ s₀.profile.successors u :=
    hinv.walk.left_of_append.infix (hseg.map _)
  have hreaches : ∀ u ∈ seg.map HistoryRun.stage, u ∈ s₀.profile.reachableStages := by
    intro u hu
    obtain ⟨h, hh, rfl⟩ := List.mem_map.mp hu
    exact hinv.reaches h (hseg.subset hh)
  have hfree : ∀ u ∈ seg.map HistoryRun.stage, s₀.profile.stageArity u ≠ a := by
    intro u hu
    obtain ⟨h, hh, rfl⟩ := List.mem_map.mp hu
    exact hfree h hh
  have hlen := Profile.WellFormed.gateReachable_walk s₀.frozen.wellFormed hgate ha hreaches hfree
    hchain
  rwa [List.length_map] at hlen

/-- The runs of a call alternate between short stretches of branching and correction runs, and the
live set shrinks across every stretch of corrections. -/
theorem CallInv.shrinking {s₀ : TaskStore} {trace : List HistoryRun}
    (hinv : CallInv rt s₀ trace s) (hgate : s₀.profile.gateReachable = true) :
    Phases.Shrinking s₀.isBranching (s₀.liveCount rt) s₀.profile.stages.length trace := by
  refine ⟨fun seg hseg k hk => ?_, fun pre b cs bs e post hsplit hb hcs hcors hbs he => ?_⟩
  · cases k with
    | true =>
        refine hinv.short hgate hseg (.inl rfl) fun h hh => ?_
        have hbranching : s₀.profile.stageArity h.stage = .branching := by
          simpa [isBranching] using hk h hh
        simp [hbranching]
    | false =>
        refine hinv.short hgate hseg (.inr rfl) fun h hh => ?_
        simpa [isBranching] using hk h hh
  · have hmem : ∀ c ∈ cs, c ∈ trace := fun c hc => by
      rw [hsplit]
      simp [hc]
    have hcorrections : ∀ c ∈ cs, s₀.profile.stageArity c.stage = .correction := fun c hc =>
      (hinv.working c (hmem c hc)).resolve_left (by simpa [isBranching] using hcors c hc)
    have hbranching : ∀ x ∈ bs, s₀.profile.stageArity x.stage = .branching := fun x hx => by
      simpa [isBranching] using hbs x hx
    have hb : s₀.profile.stageArity b.stage = .branching := by simpa [isBranching] using hb
    obtain ⟨before, hbefore, -⟩ := hinv.improves pre b _ hsplit hb
    obtain ⟨filed, hfiled, himproves⟩ := hinv.improves (pre ++ b :: (cs ++ bs)) e post
      (by rw [hsplit]; simp) (by simpa [isBranching] using he)
    have hbaseline := baseline_after_corrections (s₀.committedRunHistory ++ pre) hb hcs
      hcorrections hbranching hbefore
    have hcard := (himproves _ before (by rw [← hbaseline]; simp)).card_lt
    simpa [liveCount, hbefore, hfiled] using hcard

/-- How long a call runs: without a correction, and without a branching run, at most as many runs
as there are stages; a branching run improves on the baseline it found; and from the first
correction after a branching run the live set of that run bounds the rest. -/
structure RunsOut (rt : Runtime) (s₀ : TaskStore) (trace : List HistoryRun) : Prop where
  short : ∀ seg, seg <:+: trace → ∀ a, (a = .correction ∨ a = .branching) →
    (∀ h ∈ seg, s₀.profile.stageArity h.stage ≠ a) → seg.length ≤ s₀.profile.stages.length
  improves : ∀ pre e post, trace = pre ++ e :: post →
    s₀.profile.stageArity e.stage = .branching → ∃ record, s₀.sealedRecord rt e.run = .ok record ∧
      ∀ index prior, s₀.baseline rt (s₀.committedRunHistory ++ pre) = some (index, prior) →
        Improves record.live prior.live
  start : ∀ pre post, trace = pre ++ post →
    (∀ before b c after, pre = before ++ b :: c :: after →
      s₀.profile.stageArity b.stage = .branching → s₀.profile.stageArity c.stage = .branching) →
      pre.length ≤ 2 * s₀.profile.stages.length
  rest : ∀ pre b c post, trace = pre ++ b :: c :: post →
    s₀.profile.stageArity b.stage = .branching → s₀.profile.stageArity c.stage = .correction →
      (c :: post).length ≤
        2 * s₀.profile.stages.length * s₀.liveCount rt b + s₀.profile.stages.length

theorem CallInv.runsOut {s₀ : TaskStore} {trace : List HistoryRun} (hinv : CallInv rt s₀ trace s)
    (hgate : s₀.profile.gateReachable = true) : RunsOut rt s₀ trace := by
  have hshrinking := hinv.shrinking hgate
  refine ⟨fun seg hseg a ha hfree => hinv.short hgate hseg ha hfree, hinv.improves, ?_, ?_⟩
  · rintro pre post rfl hturn
    refine hshrinking.left_of_append.length_le_of_no_turn fun before b c after hpre hb => ?_
    have hc := hturn before b c after hpre (by simpa [isBranching] using hb)
    simp [isBranching, hc]
  · intro pre b c post hsplit hb hc
    exact hshrinking.tail_length_le _ pre b c post hsplit (by simp [isBranching, hb])
      (by simp [isBranching, hc]) le_rfl

/-- A call grows with every iteration that goes on. -/
lemma Call.extend {f : ℕ → TaskStore} {envelope : Envelope} {n : ℕ} {trace : List HistoryRun}
    (henvelope : (f 0).envelopeForTask rt = .ok (some envelope))
    (hreach : (f 0).Reachable rt anything) (hf : ∀ n, Continues rt (f n) (f (n + 1)))
    (hcall : Call rt (f 0) trace (f n)) (m : ℕ) :
    ∃ more, Call rt (f 0) (trace ++ more) (f (n + m)) ∧ more.length = m := by
  induction m with
  | zero => exact ⟨[], by simpa using hcall, rfl⟩
  | succ m ih =>
      obtain ⟨more, hmore, hlen⟩ := ih
      have hinv := hmore.inv henvelope hreach
      have hreads : (f (n + m)).envelopeForTask rt = .ok (some envelope) := by
        unfold envelopeForTask at henvelope ⊢
        rw [hinv.input]
        exact henvelope
      obtain ⟨run, hadvance⟩ :=
        (hf (n + m)).advance hreads hinv.reachable.rowsNamed hinv.reachable.leaseHeld
      have hnext := hmore.next (hf (n + m)) hadvance.history
      exact ⟨more ++ [_], by simpa [Nat.add_assoc] using hnext, by simp [hlen]⟩

/-- The loop cannot go on for ever: a call longer than two stretches has a correction after a
branching run, and from there on it is bounded. -/
theorem not_continues_forever {f : ℕ → TaskStore} {envelope : Envelope}
    (henvelope : (f 0).envelopeForTask rt = .ok (some envelope))
    (hreach : (f 0).Reachable rt anything) (hgate : (f 0).profile.gateReachable = true) :
    ¬ ∀ n, Continues rt (f n) (f (n + 1)) := by
  intro hf
  obtain ⟨trace, hcall, hlen⟩ :=
    Call.extend henvelope hreach hf .start (2 * (f 0).profile.stages.length + 1)
  rw [List.nil_append] at hcall
  have hinv := hcall.inv henvelope hreach
  have hturn : ∃ before b c after, trace = before ++ b :: c :: after ∧
      (f 0).profile.stageArity b.stage = .branching ∧
        (f 0).profile.stageArity c.stage ≠ .branching := by
    by_contra hno
    push Not at hno
    have hshort := (hinv.runsOut hgate).start trace [] (List.append_nil trace).symm hno
    omega
  obtain ⟨before, b, c, after, htrace, hb, hc⟩ := hturn
  have hcorrection := (hinv.working c (by rw [htrace]; simp)).resolve_left hc
  obtain ⟨more, hmore, hlong⟩ := hcall.extend henvelope hreach hf
    (2 * (f 0).profile.stages.length * (f 0).liveCount rt b + (f 0).profile.stages.length)
  have hrest := ((hmore.inv henvelope hreach).runsOut hgate).rest before b c (after ++ more)
    (by rw [htrace]; simp) hb hcorrection
  simp only [List.length_cons, List.length_append] at hrest
  omega

end TaskStore

/-- For an envelope task of a profile whose loops the gate can score, the loop of a call ends, and
every call that is still going on is short. -/
theorem callEnds_of_reachable (rt : Runtime) (db : Db) (hdb : Db.Reachable rt anything db)
    (id : Text) (s : TaskStore) (hs : dictGet id db = some s) (envelope : Envelope)
    (henvelope : s.envelopeForTask rt = .ok (some envelope))
    (hgate : s.profile.gateReachable = true) :
    (¬ ∃ f : ℕ → TaskStore, f 0 = s ∧ ∀ n, TaskStore.Continues rt (f n) (f (n + 1))) ∧
      ∀ trace s', TaskStore.Call rt s trace s' → TaskStore.RunsOut rt s trace := by
  have hreach := hdb.task hs
  constructor
  · rintro ⟨f, rfl, hf⟩
    exact TaskStore.not_continues_forever henvelope hreach hgate hf
  · intro trace s' hcall
    exact (hcall.inv henvelope hreach).runsOut hgate

theorem callEnds_of_reachable_envelopeTask :
    (¬ ∃ f : ℕ → TaskStore, f 0 = envelopeTask ∧
      ∀ n, TaskStore.Continues .standard (f n) (f (n + 1))) ∧
      ∀ trace s', TaskStore.Call .standard envelopeTask trace s' →
        TaskStore.RunsOut .standard envelopeTask trace := by
  obtain ⟨envelope, henvelope⟩ := envelopeForTask_envelopeTask
  exact callEnds_of_reachable .standard [("task", envelopeTask)]
    (Db.reachable_single "task" [] (submitTask_draft _) rfl) "task" envelopeTask rfl envelope
    henvelope (by decide +kernel)

end AgentOrch
