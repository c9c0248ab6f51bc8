import AgentOrch.Properties.History
import AgentOrch.Construction.RunLoop
import Mathlib.Data.Finset.Card
import Mathlib.Data.Finset.Dedup

/-!
# Reading the sealed records

`sealedConvergenceRecords` walks the branching runs of the history and stops at the first one it
can neither read nor skip.  `sealedConvergenceRecords_ok` says when it gets through, and what it
then returns; everything about a convergence context is read off that.
-/

namespace AgentOrch

open Py Json

namespace TaskStore

variable {rt : Runtime} {others : Taken} {s s' : TaskStore}

/-- The record of one sealed run, read back without a required shape. -/
def sealedRecord (rt : Runtime) (s : TaskStore) (run : StageRun) : Except Exc ConvergenceRecord := do
  let sealed_ ← s.readSealedRun run
  extractConvergence rt sealed_.finalResponse none

lemma sealedRecord_of_read {run : StageRun} {sealed_ : SealedRun}
    (h : s.readSealedRun run = .ok sealed_) :
    s.sealedRecord rt run = extractConvergence rt sealed_.finalResponse none := by
  simp [sealedRecord, h, bind, Except.bind]

/-- A run whose seal reads, but whose text has no record, and which was stopped for that. -/
def Skipped (rt : Runtime) (s : TaskStore) (run : StageRun) : Prop :=
  ∃ sealed_ m, s.readSealedRun run = .ok sealed_ ∧
    extractConvergence rt sealed_.finalResponse none = .error (.convergenceError m) ∧
      isUnestablished sealed_.manifest.reason = true

/-- The readable records among some runs, with their positions. -/
def readableRecords (rt : Runtime) (s : TaskStore) (runs : List (ℕ × StageRun)) :
    List (ℕ × ConvergenceRecord) :=
  runs.filterMap fun r =>
    match s.sealedRecord rt r.2 with
    | .ok record => some (r.1, record)
    | .error _ => none

lemma readableRecords_cons (r : ℕ × StageRun) (runs : List (ℕ × StageRun)) :
    s.readableRecords rt (r :: runs) = (match s.sealedRecord rt r.2 with
      | .ok record => [(r.1, record)]
      | .error _ => []) ++ s.readableRecords rt runs := by
  unfold readableRecords
  rw [List.filterMap_cons]
  cases s.sealedRecord rt r.2 <;> rfl

lemma mem_readableRecords {runs : List (ℕ × StageRun)} {index : ℕ} {record : ConvergenceRecord} :
    (index, record) ∈ s.readableRecords rt runs ↔
      ∃ run, (index, run) ∈ runs ∧ s.sealedRecord rt run = .ok record := by
  unfold readableRecords
  rw [List.mem_filterMap]
  constructor
  · rintro ⟨⟨i, run⟩, hmem, h⟩
    cases hrecord : s.sealedRecord rt run with
    | error e =>
        simp only [hrecord] at h
        cases h
    | ok r =>
        simp only [hrecord] at h
        cases h
        exact ⟨run, hmem, hrecord⟩
  · rintro ⟨run, hmem, hrecord⟩
    exact ⟨(index, run), hmem, by simp only [hrecord]⟩

/-- Sealed runs are read from their seals alone. -/
lemma readSealedRun_congr (hdamaged : s'.damaged = s.damaged) (run : StageRun) :
    s'.readSealedRun run = s.readSealedRun run := by
  unfold readSealedRun
  rw [hdamaged]

lemma sealedRecord_congr (hdamaged : s'.damaged = s.damaged) (run : StageRun) :
    s'.sealedRecord rt run = s.sealedRecord rt run := by
  unfold sealedRecord
  rw [readSealedRun_congr hdamaged]

/-- Damage only takes records away. -/
lemma sealedRecord_mono {run : StageRun} {record : ConvergenceRecord}
    (hdamaged : s.damaged ⊆ s'.damaged) (h : s'.sealedRecord rt run = .ok record) :
    s.sealedRecord rt run = .ok record := by
  obtain ⟨sealed_, hread, hextract⟩ := bind_eq_ok.mp h
  refine bind_eq_ok.mpr ⟨sealed_, ?_, hextract⟩
  unfold readSealedRun at hread ⊢
  cases hmanifest : run.manifest with
  | none =>
      rw [hmanifest] at hread
      cases hread
  | some m =>
      simp only [hmanifest] at hread ⊢
      obtain ⟨_, hintact, hread⟩ := bind_eq_ok.mp hread
      have hintact : run.runToken ∉ s'.damaged := by simpa using hintact
      exact bind_eq_ok.mpr ⟨(), by simpa using fun h => hintact (hdamaged h), hread⟩

lemma skipped_congr (hdamaged : s'.damaged = s.damaged) (run : StageRun) :
    s'.Skipped rt run ↔ s.Skipped rt run := by
  unfold Skipped
  rw [readSealedRun_congr hdamaged]

lemma readableRecords_congr (hdamaged : s'.damaged = s.damaged) (runs : List (ℕ × StageRun)) :
    s'.readableRecords rt runs = s.readableRecords rt runs := by
  unfold readableRecords
  simp only [sealedRecord_congr hdamaged]

lemma readableRecords_append (xs ys : List (ℕ × StageRun)) :
    s.readableRecords rt (xs ++ ys) = s.readableRecords rt xs ++ s.readableRecords rt ys :=
  List.filterMap_append

/-- The runs of an arity are read off the history. -/
lemma runsOfArity_congr (hhistory : s'.committedRunHistory = s.committedRunHistory)
    (hfrozen : s'.frozen = s.frozen) (a : Arity) : s'.runsOfArity a = s.runsOfArity a := by
  unfold runsOfArity profile
  rw [hhistory, hfrozen]

/-- One more entry of the history is the last run of its arity. -/
lemma runsOfArity_append {h : HistoryRun}
    (hhistory : s'.committedRunHistory = s.committedRunHistory ++ [h])
    (hfrozen : s'.frozen = s.frozen) (a : Arity) :
    s'.runsOfArity a = s.runsOfArity a ++
      if s.profile.stageArity h.stage = a then [(s.committedRunHistory.length, h.run)] else [] := by
  unfold runsOfArity profile
  rw [hhistory, hfrozen, List.zipIdx_append, List.filter_append, List.map_append]
  congr 1
  by_cases ha : s.frozen.profile.stageArity h.stage = a <;> simp [ha]

/-- The runs of an arity are runs of the history. -/
lemma mem_runsOfArity {a : Arity} {r : ℕ × StageRun} (h : r ∈ s.runsOfArity a) :
    ∃ entry ∈ s.committedRunHistory, s.profile.stageArity entry.stage = a ∧ entry.run = r.2 := by
  unfold runsOfArity at h
  obtain ⟨⟨entry, index⟩, hentry, rfl⟩ := List.mem_map.mp h
  obtain ⟨hentry, harity⟩ := List.mem_filter.mp hentry
  exact ⟨entry, List.fst_mem_of_mem_zipIdx hentry, of_decide_eq_true harity, rfl⟩

/-- The positions of the runs of an arity lie in the history. -/
lemma runsOfArity_lt {a : Arity} {r : ℕ × StageRun} (h : r ∈ s.runsOfArity a) :
    r.1 < s.committedRunHistory.length := by
  unfold runsOfArity at h
  obtain ⟨⟨entry, index⟩, hentry, rfl⟩ := List.mem_map.mp h
  have hmem := List.mem_zipIdx (List.mem_of_mem_filter hentry)
  simpa using hmem.2.1

/-- The walk gets through exactly when every run reads or is skipped, and then it has the readable
records. -/
theorem sealedConvergenceRecords_ok {runs : List (ℕ × StageRun)}
    {records : List (ℕ × ConvergenceRecord)} :
    s.sealedConvergenceRecords rt runs = .ok (records, none) ↔
      records = s.readableRecords rt runs ∧
        ∀ r ∈ runs, (∃ record, s.sealedRecord rt r.2 = .ok record) ∨ s.Skipped rt r.2 := by
  induction runs generalizing records with
  | nil => simp [sealedConvergenceRecords, readableRecords, eq_comm]
  | cons r rest ih =>
      obtain ⟨index, run⟩ := r
      unfold sealedConvergenceRecords
      rw [readableRecords_cons]
      cases hread : s.readSealedRun run with
      | error e =>
          have hrecord : s.sealedRecord rt run = .error e := by simp [sealedRecord, hread, bind,
            Except.bind]
          constructor
          · intro h
            dsimp only at h
            split_ifs at h
            cases h
          · rintro ⟨-, hall⟩
            rcases hall (index, run) List.mem_cons_self with ⟨record, h⟩ | ⟨_, _, h, -⟩
            · rw [hrecord] at h
              cases h
            · rw [hread] at h
              cases h
      | ok sealed_ =>
          have hrecord : s.sealedRecord rt run = _ := sealedRecord_of_read hread
          dsimp only
          rw [hrecord]
          cases hextract : extractConvergence rt sealed_.finalResponse none with
          | ok record =>
              dsimp only
              rw [bind_eq_ok]
              constructor
              · rintro ⟨⟨records', error⟩, hrest, h⟩
                cases h
                obtain ⟨rfl, hall⟩ := ih.mp hrest
                refine ⟨rfl, fun r hr => ?_⟩
                rcases List.mem_cons.mp hr with rfl | hr
                · exact .inl ⟨record, hrecord.trans hextract⟩
                · exact hall r hr
              · rintro ⟨rfl, hall⟩
                exact ⟨_, ih.mpr ⟨rfl, fun r hr => hall r (List.mem_cons_of_mem _ hr)⟩, rfl⟩
          | error e =>
              have hskip : ∀ m, e = .convergenceError m →
                  isUnestablished sealed_.manifest.reason = true → s.Skipped rt run :=
                fun m he hreason => ⟨sealed_, m, hread, he ▸ hextract, hreason⟩
              have hno : ¬ ∃ record, s.sealedRecord rt run = .ok record := by
                rintro ⟨record, h⟩
                rw [hrecord, hextract] at h
                cases h
              have hreason : s.Skipped rt run → (∃ m, e = .convergenceError m) ∧
                  isUnestablished sealed_.manifest.reason = true := by
                rintro ⟨sealed', m, h1, h2, h3⟩
                rw [hread] at h1
                obtain rfl := Except.ok.inj h1
                rw [hextract] at h2
                exact ⟨⟨m, Except.error.inj h2⟩, h3⟩
              have hhead : (∀ r ∈ (index, run) :: rest, (∃ record, s.sealedRecord rt r.2 =
                  .ok record) ∨ s.Skipped rt r.2) ↔ s.Skipped rt run ∧ ∀ r ∈ rest,
                    (∃ record, s.sealedRecord rt r.2 = .ok record) ∨ s.Skipped rt r.2 := by
                rw [List.forall_mem_cons]
                exact and_congr_left fun _ => ⟨fun h => h.resolve_left hno, .inr⟩
              rw [hhead]
              cases e with
              | convergenceError m =>
                  dsimp only
                  split_ifs with hunestablished
                  · rw [ih, List.nil_append]
                    exact and_congr_right fun _ =>
                      ⟨fun h => ⟨hskip m rfl hunestablished, h⟩, And.right⟩
                  · constructor
                    · intro h
                      cases h
                    · rintro ⟨-, hs, -⟩
                      exact absurd (hreason hs).2 hunestablished
              | _ =>
                  constructor
                  · intro h
                    cases h
                  · rintro ⟨-, hs, -⟩
                    obtain ⟨⟨m, hm⟩, -⟩ := hreason hs
                    cases hm

/-! ## The baseline -/

/-- The runs of an arity in a stretch of the history that starts at position `k`. -/
def arityRuns (p : Profile) (a : Arity) (k : ℕ) (runs : List HistoryRun) : List (ℕ × StageRun) :=
  ((runs.zipIdx k).filter fun h => p.stageArity h.1.stage = a).map fun h => (h.2, h.1.run)

lemma runsOfArity_eq (a : Arity) :
    s.runsOfArity a = arityRuns s.profile a 0 s.committedRunHistory := rfl

/-- The baseline a history gives: the last readable branching run with a correction after it. -/
def baseline (rt : Runtime) (s : TaskStore) (runs : List HistoryRun) :
    Option (ℕ × ConvergenceRecord) :=
  ConvergenceContext.select (s.readableRecords rt (arityRuns s.profile .branching 0 runs))
    ((arityRuns s.profile .correction 0 runs).map Prod.fst)

lemma baseline_congr (hfrozen : s'.frozen = s.frozen) (hdamaged : s'.damaged = s.damaged)
    (runs : List HistoryRun) : s'.baseline rt runs = s.baseline rt runs := by
  unfold baseline profile
  rw [hfrozen, readableRecords_congr hdamaged]

end TaskStore

/-! ## Contexts -/

/-- The baseline is one of the records, and has a correction after it. -/
lemma ConvergenceContext.mem_of_select {records : List (ℕ × ConvergenceRecord)}
    {corrections : List ℕ} {r : ℕ × ConvergenceRecord} (h : select records corrections = some r) :
    r ∈ records := by
  have hmem := List.mem_of_getLast? h
  exact (List.mem_filter.mp hmem).1

/-- A context without an error, whatever it was made from. -/
lemma ConvergenceContext.ofRecords_error {records : List (ℕ × ConvergenceRecord)}
    {corrections : List ℕ} {error : Option Text} :
    (ofRecords records corrections error).error = error := by
  unfold ofRecords
  split
  · rfl
  · rfl

/-- With a baseline, the run is scored against it and against every set resolved before. -/
lemma ConvergenceContext.ofRecords_select {records : List (ℕ × ConvergenceRecord)}
    {corrections : List ℕ} {index : ℕ} {prior : ConvergenceRecord}
    (h : select records corrections = some (index, prior)) :
    ofRecords records corrections none =
      ⟨true, prior.live, records.flatMap fun r => r.2.resolved, some index, none⟩ := by
  simp only [ofRecords, h]

lemma ConvergenceContext.ofRecords_first {records : List (ℕ × ConvergenceRecord)}
    {corrections : List ℕ} (h : select records corrections = none) :
    ofRecords records corrections none = first none := by
  simp only [ofRecords, h]

/-- A context without an error comes from the readable records. -/
lemma TaskStore.convergenceContext_ok {rt : Runtime} {s : TaskStore} {stage : Text}
    {context : ConvergenceContext}
    (h : s.convergenceContext rt stage = .ok (some context)) (herror : context.error = none) :
    s.sealedConvergenceRecords rt (s.runsOfArity .branching) =
        .ok (s.readableRecords rt (s.runsOfArity .branching), none) ∧
      context = .ofRecords (s.readableRecords rt (s.runsOfArity .branching))
        ((s.runsOfArity .correction).map Prod.fst) none := by
  unfold TaskStore.convergenceContext at h
  by_cases hother : s.profile.stageArity stage ≠ .branching
  · rw [if_pos hother] at h
    cases h
  rw [if_neg hother] at h
  obtain ⟨⟨records, error⟩, hrecords, h⟩ := bind_eq_ok.mp h
  cases h
  rw [ConvergenceContext.ofRecords_error] at herror
  subst herror
  obtain ⟨rfl, -⟩ := TaskStore.sealedConvergenceRecords_ok.mp hrecords
  exact ⟨hrecords, rfl⟩

/-- Only branching stages have a context. -/
lemma TaskStore.convergenceContext_branching {rt : Runtime} {s : TaskStore} {stage : Text}
    {context : Option ConvergenceContext} (h : s.convergenceContext rt stage = .ok context)
    (hbranching : s.profile.stageArity stage = .branching) : ∃ c, context = some c := by
  unfold TaskStore.convergenceContext at h
  rw [if_neg (by simp [hbranching])] at h
  obtain ⟨records, -, h⟩ := bind_eq_ok.mp h
  cases h
  exact ⟨_, rfl⟩

/-! ## What a settled run was scored as -/

/-- A record that strictly improves on a set of live identities. -/
def Improves (live prior : List Text) : Prop := (∀ x ∈ live, x ∈ prior) ∧ ∃ x ∈ prior, x ∉ live

lemma improves_of_verdict {prior historical live : List Text}
    (h : convergenceVerdict prior historical live = .improved) : Improves live prior := by
  unfold convergenceVerdict at h
  by_cases hosc : live.any (· ∈ historical) = true
  · rw [if_pos hosc] at h
    cases h
  · rw [if_neg hosc] at h
    by_cases himproved : ((live.all (· ∈ prior) && !prior.all (· ∈ live)) &&
        (live.filter (· ∉ prior)).isEmpty) = true
    · simp only [Bool.and_eq_true, List.all_eq_true, decide_eq_true_eq, Bool.not_eq_true',
        List.all_eq_false] at himproved
      exact ⟨himproved.1.1, himproved.1.2⟩
    · dsimp only at h
      rw [if_neg himproved] at h
      cases h

/-- The verdict of a validated record is the computed one. -/
lemma improves_of_validate {rt : Runtime} {record : ConvergenceRecord}
    {prior historical : List Text} {verdict : Verdict}
    (h : validateConvergence rt record prior historical = .ok verdict)
    (himproved : verdict = .improved) : Improves record.live prior := by
  unfold validateConvergence at h
  cases hscored : record.scored with
  | none =>
      rw [hscored] at h
      cases h
  | some scored =>
      simp only [hscored, bind_eq_ok] at h
      obtain ⟨_, -, _, -, _, -, _, -, h⟩ := h
      cases h
      exact improves_of_verdict himproved

/-- An improvement has fewer distinct identities. -/
lemma Improves.card_lt {live prior : List Text} (h : Improves live prior) :
    live.toFinset.card < prior.toFinset.card := by
  refine Finset.card_lt_card ?_
  obtain ⟨hsub, x, hx, hnot⟩ := h
  refine Finset.ssubset_iff_of_subset (fun y hy => ?_) |>.mpr ⟨x, ?_, ?_⟩
  · exact List.mem_toFinset.mpr (hsub y (List.mem_toFinset.mp hy))
  · exact List.mem_toFinset.mpr hx
  · rwa [List.mem_toFinset]

/-- What the gate accepted: a record of the required shape that, on a repeat run, validates
against the baseline. -/
structure Accepts (rt : Runtime) (context : ConvergenceContext) (result : RunResult)
    (record : ConvergenceRecord) : Prop where
  unbroken : context.error = none
  success : result.classification = .success
  extracted : extractConvergence rt result.authoritativeText (some context.isRepeat) = .ok record
  validated : context.isRepeat = true → ∃ verdict,
    validateConvergence rt record context.priorLive context.historicalResolved = .ok verdict

/-- A result the gate lets continue was accepted as it is, and on a repeat run it improves. -/
lemma accepts_of_applyConvergence {rt : Runtime} {result scored : RunResult}
    {context : ConvergenceContext} (h : applyConvergence rt result context = .ok scored)
    (hsuccess : scored.classification = .success) (hgoes : scored.outcome ≠ some holdOutcome) :
    scored = result ∧ ∃ record, Accepts rt context result record ∧
      (context.isRepeat = true → Improves record.live context.priorLive) := by
  unfold applyConvergence at h
  by_cases hclass : result.classification ≠ .success
  · rw [if_pos hclass] at h
    cases h
    exact absurd hsuccess hclass
  · rw [if_neg hclass] at h
    have hclass : result.classification = .success := not_not.mp hclass
    cases herror : context.error with
    | some e =>
        simp only [herror] at h
        cases h
        exact absurd rfl hgoes
    | none =>
        simp only [herror] at h
        cases hextract : extractConvergence rt result.authoritativeText
            (some context.isRepeat) with
        | error e =>
            rw [hextract] at h
            cases e <;> cases h
            exact absurd rfl hgoes
        | ok record =>
            simp only [hextract] at h
            by_cases hrepeat : context.isRepeat = true
            · rw [if_pos hrepeat] at h
              unfold scoreRepeat at h
              cases hvalid : validateConvergence rt record context.priorLive
                  context.historicalResolved with
              | error e =>
                  rw [hvalid] at h
                  cases e <;> cases h
                  exact absurd rfl hgoes
              | ok verdict =>
                  simp only [hvalid] at h
                  split_ifs at h with hheld hverdict
                  · cases h
                    exact absurd hheld hgoes
                  · cases h
                    exact absurd rfl hgoes
                  · cases h
                    refine ⟨rfl, record, ⟨herror, hclass, hextract, fun _ => ⟨_, hvalid⟩⟩,
                      fun _ => ?_⟩
                    exact improves_of_validate hvalid (not_not.mp hverdict)
            · rw [if_neg hrepeat] at h
              cases h
              exact ⟨rfl, record, ⟨herror, hclass, hextract, fun h => absurd h hrepeat⟩,
                fun h => absurd h hrepeat⟩

end AgentOrch
