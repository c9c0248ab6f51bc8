import AgentOrch.Construction.Evidence
import AgentOrch.Properties.History

/-!
# Files that run ahead

The notifications of a task are written to its files before the transaction that notifies is
committed.  As long as no transaction is cut off after that, the lines of `notifications.jsonl` are
the rows of the table, and `evidence.json` lists what the database holds; every transaction cut off
later leaves a line too many for good.
-/

namespace AgentOrch

open Py Json

variable {rt : Runtime} {id : Text}

/-! ## What an index lists -/

/-- The index lists rows of the database, with a status the task had. -/
structure EvidenceIndex.Lists (e : EvidenceIndex) (s : TaskStore)
    (notifications : List Notification) : Prop where
  status : ∃ t ∈ s.transitions, t.toStatus = e.status
  stages : ∀ entry ∈ e.stages, entry.run ∈ s.stageRuns
  named : ∀ entry ∈ e.stages, ∀ seq, entry.seq = some seq →
    ∃ t ∈ s.transitions, t.seq = seq ∧ t.runToken = some entry.run.runToken
  transitions : e.transitions ⊆ s.transitions
  notifications : e.notifications ⊆ notifications

/-- An index that lists no run that could still change. -/
structure EvidenceIndex.Final (e : EvidenceIndex) (s : TaskStore)
    (notifications : List Notification) : Prop extends e.Lists s notifications where
  ended : ∀ entry ∈ e.stages, entry.run.status ≠ .running

namespace TaskStore

variable {others : Taken} {op : Operation} {s s' : TaskStore} {n : Notification}
  {notifications notifications' : List Notification} {e : EvidenceIndex}

/-- A final index stays one: the log grows, and a run that is over keeps its row. -/
lemma Change.final (h : Change rt others s op s') (hnames : s.RowsNamed)
    (he : e.Final s notifications) (hsub : notifications ⊆ notifications') :
    e.Final s' notifications' := by
  obtain ⟨ts, hlog⟩ := h.log_extends
  have hlogged : s.transitions ⊆ s'.transitions := by
    rw [hlog]
    exact List.subset_append_left _ _
  refine ⟨⟨?_, ?_, ?_, ?_, ?_⟩, he.ended⟩
  · obtain ⟨t, ht, hstatus⟩ := he.status
    exact ⟨t, hlogged ht, hstatus⟩
  · intro entry hentry
    exact hnames.keeps h (he.stages entry hentry) (he.ended entry hentry)
  · intro entry hentry seq hseq
    obtain ⟨t, ht, hnamed⟩ := he.named entry hentry seq hseq
    exact ⟨t, hlogged ht, hnamed⟩
  · exact List.Subset.trans he.transitions hlogged
  · exact List.Subset.trans he.notifications hsub

/-- An operation that notifies leaves its task stopped. -/
lemma Change.notice_stops (h : Change rt others s op s') (hn : s.notice rt id op s' = some n) :
    s'.task.status ≠ .running := by
  cases h with
  | stopCap => simp [capped]
  | claim stamp model stage =>
      have hrunning : (s.claimedBy stamp stage model).task.status = .running := rfl
      rw [notice, if_pos hrunning] at hn
      cases hn
  | park _ _ _ _ _ _ _ _ _ _ hcase => exact hcase.not_running.2
  | follow => exact edgeStatus_ne_running
  | resume => cases hn
  | preflight stamp stop =>
      show (if stop.paused then Status.paused else Status.blocked) ≠ .running
      split_ifs
      · simp
      · simp
  | preflightIdle _ _ hqueued =>
      rw [notice, if_neg hqueued] at hn
      cases hn
  | orphan => simp [orphaned]
  | alter => cases hn

/-- The index of a stopped task is final. -/
lemma evidenceIndex_final (hlease : s.LeaseHeld) (hlog : s.LogChained)
    (hstopped : s.task.status ≠ .running) :
    (evidenceIndex s notifications).Final s notifications := by
  have hover := hlease.none_running hstopped
  have hstages : ∀ entry ∈ (evidenceIndex s notifications).stages, entry.run ∈ s.stageRuns ∧
      entry.seq = (s.transitionByRun entry.run.runToken).map Transition.seq := by
    intro entry hentry
    obtain ⟨run, hrun, rfl⟩ := List.mem_map.mp hentry
    exact ⟨List.mem_mergeSort.mp hrun, rfl⟩
  refine ⟨⟨?_, fun entry hentry => (hstages entry hentry).1, ?_, List.Subset.refl _,
    List.Subset.refl _⟩, fun entry hentry => hover _ (hstages entry hentry).1⟩
  · obtain ⟨t, hlast, hfollows⟩ := hlog.ends
    refine ⟨t, List.mem_of_getLast? hlast, ?_⟩
    rcases hfollows with hsame | ⟨-, hrunning⟩
    · exact (Option.some.inj hsame).symm
    · exact absurd (Option.some.inj hrunning) hstopped
  · intro entry hentry seq hseq
    rw [(hstages entry hentry).2, Option.map_eq_some_iff] at hseq
    obtain ⟨t, ht, hseq⟩ := hseq
    obtain ⟨hmem, hnamed⟩ := List.mem_filter.mp (List.mem_of_getLast? ht)
    exact ⟨t, hmem, hseq, of_decide_eq_true hnamed⟩

end TaskStore

namespace Recorded

variable {r r' : Recorded} {w : Writing} {ws : List Writing}

/-! ## Lines too many -/

/-- The transaction was cut off after its notification was a line. -/
def isLate : Writing → Bool
  | .forward => false
  | .cut progress => progress ≠ .rows && progress ≠ .row

/-- Nothing was cut off late. -/
def Timely (ws : List Writing) : Prop :=
  ∀ progress, .cut progress ∈ ws → progress = .rows ∨ progress = .row

lemma filter_isLate_eq_nil : ws.filter isLate = [] ↔ Timely ws := by
  rw [List.filter_eq_nil_iff]
  constructor
  · intro h progress hmem
    have hlate := h _ hmem
    cases progress <;> simp [isLate] at hlate ⊢
  · intro h w hmem
    cases w with
    | forward => simp [isLate]
    | cut progress => rcases h progress hmem with rfl | rfl <;> simp [isLate]

/-- The rows that have a line when every line has a row: those of the open transaction once its
line is written. -/
def noted (r : Recorded) : List Notification :=
  match r.transaction with
  | none => r.notifications
  | some t => if t.progress = .rows ∨ t.progress = .row then r.notifications else t.notifications

/-- What an open transaction sees of its notifications. -/
def Extends (r : Recorded) : Prop :=
  ∀ t, r.transaction = some t →
    (t.progress = .rows → t.notifications = r.notifications) ∧
    (t.progress ≠ .rows → ∃ n, t.notice = some n ∧ t.notifications = r.notifications ++ [n])

lemma Extends.step (h : r.Extends) (hstep : Step rt id r w r') : r'.Extends := by
  cases hstep with
  | begin_ others op s' hidle hperform =>
      rintro _ ⟨⟩
      exact ⟨fun _ => rfl, fun hne => absurd rfl hne⟩
  | row t n ht hprogress hnotice hkey =>
      rintro _ ⟨⟩
      refine ⟨fun hrows => (nomatch hrows), fun _ => ⟨n, hnotice, ?_⟩⟩
      rw [(h t ht).1 hprogress]
  | line t n ht hprogress hnotice =>
      rintro _ ⟨⟩
      exact ⟨fun hrows => (nomatch hrows), fun _ => (h t ht).2 (by simp [hprogress])⟩
  | inbox t n ht hprogress hnotice =>
      rintro _ ⟨⟩
      exact ⟨fun hrows => (nomatch hrows), fun _ => (h t ht).2 (by simp [hprogress])⟩
  | index t ht hprogress =>
      rintro _ ⟨⟩
      exact ⟨fun hrows => (nomatch hrows), fun _ => (h t ht).2 (by simp [hprogress])⟩
  | commit | cut =>
      rintro _ ⟨⟩

/-- Every line has a row, but for those of the transactions cut off late. -/
def Counted (r : Recorded) (ws : List Writing) : Prop :=
  r.lines.length = r.noted.length + (ws.filter isLate).length

lemma Counted.step (h : r.Counted ws) (hextends : r.Extends) (hstep : Step rt id r w r') :
    r'.Counted (ws ++ [w]) := by
  unfold Counted at h ⊢
  have hforward : ((ws ++ [Writing.forward]).filter isLate) = ws.filter isLate := by
    rw [List.filter_append]
    exact List.append_nil _
  cases hstep with
  | begin_ others op s' hidle hperform =>
      rw [hforward]
      simpa [noted, hidle] using h
  | row t n ht hprogress hnotice hkey =>
      rw [hforward]
      simpa [noted, ht, hprogress] using h
  | line t n ht hprogress hnotice =>
      obtain ⟨n', -, hrows⟩ := (hextends t ht).2 (by simp [hprogress])
      rw [hforward]
      simp only [noted, ht, hprogress, or_true, if_true] at h
      simp only [noted, List.length_append, List.length_singleton, h, hrows]
      simp
      omega
  | inbox t n ht hprogress hnotice =>
      rw [hforward]
      simpa [noted, ht, hprogress] using h
  | index t ht hprogress =>
      rw [hforward]
      simpa [noted, ht, hprogress] using h
  | commit t ht hdone =>
      rw [hforward]
      by_cases hnotice : t.notice.isSome = true
      · rw [if_pos hnotice] at hdone
        simpa [noted, ht, hdone] using h
      · rw [if_neg hnotice] at hdone
        have hsame := (hextends t ht).1 hdone
        simpa [noted, ht, hdone, hsame] using h
  | cut t ht =>
      rw [List.filter_append, List.length_append]
      by_cases hearly : t.progress = .rows ∨ t.progress = .row
      · have hlate : isLate (.cut t.progress) = false := by
          rcases hearly with hearly | hearly
          · simp [isLate, hearly]
          · simp [isLate, hearly]
        simp only [noted, ht, if_pos hearly] at h
        simp [noted, hlate, h]
      · have hlate : isLate (.cut t.progress) = true := by
          simpa [isLate, not_or] using hearly
        obtain ⟨n, -, hrows⟩ := (hextends t ht).2 fun hrows => hearly (.inl hrows)
        simp only [noted, ht, if_neg hearly, hrows, List.length_append,
          List.length_singleton] at h
        simp only [noted, List.filter_cons, hlate, if_true, List.filter_nil,
          List.length_singleton, h]
        omega

/-! ## Files that agree -/

/-- The rows that have a line in `inbox.md`. -/
def posted (r : Recorded) : List Notification :=
  match r.transaction with
  | none => r.notifications
  | some t =>
    if t.progress = .inbox ∨ t.progress = .index then t.notifications else r.notifications

/-- The rows that `evidence.json` was written from, or that came after it. -/
def indexed (r : Recorded) : TaskStore × List Notification :=
  match r.transaction with
  | none => (r.store, r.notifications)
  | some t =>
    if t.progress = .index then (t.store, t.notifications) else (r.store, r.notifications)

/-- The files agree with the rows, committed or about to be. -/
structure Filed (rt : Runtime) (id : Text) (r : Recorded) : Prop where
  reachable : r.store.Reachable rt anything
  performs : ∀ t, r.transaction = some t → ∃ others op, r.store.perform rt others op = .ok t.store ∧
    t.notice = r.store.notice rt id op t.store
  lines : r.lines = r.noted
  inbox : r.inbox = r.posted
  evidence : ∀ e, r.evidence = some e → e.Final r.indexed.1 r.indexed.2

/-- The rows of an open transaction that has a notice are those of a stopped task. -/
lemma Filed.stopped (h : r.Filed rt id) {t : Transaction} {n : Notification}
    (ht : r.transaction = some t) (hnotice : t.notice = some n) :
    (evidenceIndex t.store t.notifications).Final t.store t.notifications := by
  obtain ⟨others, op, hperform, hsame⟩ := h.performs t ht
  rw [hsame] at hnotice
  have hchange := TaskStore.perform_change hperform
  exact TaskStore.evidenceIndex_final (h.reachable.leaseHeld.change hchange)
    (h.reachable.logChained.change hchange) (hchange.notice_stops hnotice)

lemma Filed.step (h : r.Filed rt id) (hextends : r.Extends) (hstep : Step rt id r w r')
    (hearly : isLate w = false) : r'.Filed rt id := by
  obtain ⟨hreach, hperforms, hlines, hinbox, hevidence⟩ := h
  cases hstep with
  | begin_ others op s' hidle hperform =>
      simp only [noted, posted, indexed, hidle] at hlines hinbox hevidence
      refine ⟨hreach, ?_, by simpa [noted] using hlines, by simpa [posted] using hinbox, ?_⟩
      · rintro _ ⟨⟩
        exact ⟨others, op, hperform, rfl⟩
      · simpa [indexed] using hevidence
  | row t n ht hprogress hnotice hkey =>
      simp only [noted, posted, indexed, ht, hprogress] at hlines hinbox hevidence
      refine ⟨hreach, ?_, by simpa [noted] using hlines, by simpa [posted] using hinbox, ?_⟩
      · rintro _ ⟨⟩
        exact hperforms t ht
      · simpa [indexed] using hevidence
  | line t n ht hprogress hnotice =>
      obtain ⟨n', hnotice', hrows⟩ := (hextends t ht).2 (by simp [hprogress])
      rw [hnotice] at hnotice'
      obtain rfl := Option.some.inj hnotice'
      simp only [noted, posted, indexed, ht, hprogress] at hlines hinbox hevidence
      refine ⟨hreach, ?_, ?_, by simpa [posted] using hinbox, ?_⟩
      · rintro _ ⟨⟩
        exact hperforms t ht
      · simpa [noted, hrows] using hlines
      · simpa [indexed] using hevidence
  | inbox t n ht hprogress hnotice =>
      obtain ⟨n', hnotice', hrows⟩ := (hextends t ht).2 (by simp [hprogress])
      rw [hnotice] at hnotice'
      obtain rfl := Option.some.inj hnotice'
      simp only [noted, posted, indexed, ht, hprogress] at hlines hinbox hevidence
      refine ⟨hreach, ?_, by simpa [noted] using hlines, ?_, ?_⟩
      · rintro _ ⟨⟩
        exact hperforms t ht
      · simpa [posted, hrows] using hinbox
      · simpa [indexed] using hevidence
  | index t ht hprogress =>
      obtain ⟨n, hnotice, -⟩ := (hextends t ht).2 (by simp [hprogress])
      have hfinal := Filed.stopped ⟨hreach, hperforms, hlines, hinbox, hevidence⟩ ht hnotice
      simp only [noted, posted, ht, hprogress] at hlines hinbox
      refine ⟨hreach, ?_, by simpa [noted] using hlines, by simpa [posted] using hinbox, ?_⟩
      · rintro _ ⟨⟩
        exact hperforms t ht
      · rintro _ ⟨⟩
        exact hfinal
  | commit t ht hdone =>
      obtain ⟨others, op, hperform, -⟩ := hperforms t ht
      have hreach' : t.store.Reachable rt anything := .step hreach ⟨others, op, trivial, hperform⟩
      simp only [noted, posted, indexed, ht] at hlines hinbox hevidence
      by_cases hnotice : t.notice.isSome = true
      · rw [if_pos hnotice] at hdone
        simp only [hdone] at hlines hinbox hevidence
        refine ⟨hreach', fun _ hnone => (nomatch hnone), ?_, ?_, hevidence⟩
        · simpa [noted] using hlines
        · simpa [posted] using hinbox
      · rw [if_neg hnotice] at hdone
        have hsame := (hextends t ht).1 hdone
        simp only [hdone] at hlines hinbox hevidence
        refine ⟨hreach', fun _ hnone => (nomatch hnone), ?_, ?_, fun e he => ?_⟩
        · simpa [noted, hsame] using hlines
        · simpa [posted, hsame] using hinbox
        · have hfinal : e.Final r.store r.notifications := by simpa using hevidence e he
          exact (TaskStore.perform_change hperform).final hreach.rowsNamed hfinal
            (by rw [hsame]; exact List.Subset.refl _)
  | cut t ht =>
      have hprogress : t.progress = .rows ∨ t.progress = .row := by
        simpa [isLate, or_iff_not_imp_left] using hearly
      simp only [noted, posted, indexed, ht, if_pos hprogress] at hlines hinbox hevidence
      refine ⟨hreach, fun _ hnone => (nomatch hnone), hlines, ?_, ?_⟩
      · rcases hprogress with hprogress | hprogress
        · simpa [posted, hprogress] using hinbox
        · simpa [posted, hprogress] using hinbox
      · rcases hprogress with hprogress | hprogress
        · simpa [indexed, hprogress] using hevidence
        · simpa [indexed, hprogress] using hevidence

lemma Runs.counted (h : Runs rt id r ws) : r.Extends ∧ r.Counted ws := by
  induction h with
  | init h =>
      obtain ⟨s, hs, rfl⟩ := h
      exact ⟨fun _ hnone => (nomatch hnone), rfl⟩
  | step _ hs ih => exact ⟨ih.1.step hs, ih.2.step ih.1 hs⟩

lemma Runs.filed (h : Runs rt id r ws) (htimely : Timely ws) : r.Filed rt id := by
  induction h with
  | init h =>
      obtain ⟨s, hs, rfl⟩ := h
      exact ⟨.init hs, fun _ hnone => (nomatch hnone), rfl, rfl, fun _ hnone => (nomatch hnone)⟩
  | step h hs ih =>
      have hfiled := ih fun progress hmem => htimely progress (List.mem_append_left _ hmem)
      refine hfiled.step (Runs.counted h).1 hs ?_
      rename_i w _
      cases w with
      | forward => rfl
      | cut progress =>
          rcases htimely progress (by simp) with rfl | rfl
          · rfl
          · rfl

/-! ## The result -/

/-- With no transaction open, the lines of the file are the rows of the table exactly when no
transaction was cut off after its line was written; then `inbox.md` and `evidence.json` agree with
the database as well. -/
theorem files_agree_iff (rt : Runtime) (id : Text) (r : Recorded) (ws : List Writing)
    (h : Runs rt id r ws) (hidle : r.transaction = none) :
    (r.lines = r.notifications ↔ Timely ws) ∧
      (Timely ws → r.inbox = r.notifications ∧
        ∀ e, r.evidence = some e → e.Lists r.store r.notifications) := by
  have hfiled : Timely ws → r.lines = r.notifications ∧ r.inbox = r.notifications ∧
      ∀ e, r.evidence = some e → e.Lists r.store r.notifications := by
    intro htimely
    obtain ⟨-, -, hlines, hinbox, hevidence⟩ := Runs.filed h htimely
    simp only [noted, posted, indexed, hidle] at hlines hinbox hevidence
    exact ⟨hlines, hinbox, fun e he => (hevidence e he).toLists⟩
  refine ⟨⟨fun hlines => ?_, fun htimely => (hfiled htimely).1⟩, fun htimely => (hfiled htimely).2⟩
  have hcounted := (Runs.counted h).2
  simp only [Counted, noted, hidle, hlines] at hcounted
  rw [← filter_isLate_eq_nil]
  exact List.eq_nil_of_length_eq_zero (by omega)

/-! ## A preflight that timed out -/

def timedOutPreflight : TaskStore.PreflightStop :=
  ⟨true, "provider_preflight_timeout", [], none, none, 0, 1⟩

/-- The draft, stopped by its preflight. -/
def preflightedDraft : TaskStore :=
  (draftTask []).preflighted (sampleStamp 1) draftStage timedOutPreflight

lemma perform_timedOutPreflight :
    (draftTask []).perform .standard ⟨[], []⟩ (.preflightStop (sampleStamp 1) timedOutPreflight) =
      .ok preflightedDraft := by rfl

def timeoutNotice : Notification :=
  ⟨2, "provider_preflight_timeout",
    stopMessage "task" .paused "provider preflight provider_preflight_timeout"⟩

/-- The transaction that records the stop, up to some point. -/
def stopping (notifications : List Notification) (progress : Progress) : Transaction :=
  ⟨preflightedDraft, notifications, some timeoutNotice, progress⟩

lemma runs_line : Runs .standard "task" ⟨draftTask [], [], [timeoutNotice], [], none,
    some (stopping [timeoutNotice] .line)⟩ [.forward, .forward, .forward] := by
  have h0 : Runs .standard "task" ⟨draftTask [], [], [], [], none, none⟩ [] :=
    .init ⟨draftTask [], ⟨_, _, submitTask_draft []⟩, rfl⟩
  have h1 := h0.step (.begin_ ⟨[], []⟩ _ preflightedDraft rfl perform_timedOutPreflight)
  have h2 := h1.step (.row (stopping [] .rows) timeoutNotice rfl rfl rfl List.not_mem_nil)
  exact h2.step (.line (stopping [timeoutNotice] .row) timeoutNotice rfl rfl rfl)

/-- The stop is committed, and its line and its index stay. -/
theorem files_agree_iff_timedOut :
    ([timeoutNotice] : List Notification) = [timeoutNotice] ∧
      (evidenceIndex preflightedDraft [timeoutNotice]).Lists preflightedDraft [timeoutNotice] := by
  have h4 := runs_line.step (.inbox (stopping [timeoutNotice] .line) timeoutNotice rfl rfl rfl)
  have h5 := h4.step (.index (stopping [timeoutNotice] .inbox) rfl rfl)
  have h6 := h5.step (.commit (stopping [timeoutNotice] .index) rfl rfl)
  have htimely : Timely [.forward, .forward, .forward, .forward, .forward, .forward] := by
    intro progress hmem
    simp at hmem
  have hagree := files_agree_iff .standard "task" _ _ h6 rfl
  exact ⟨hagree.1.mpr htimely, (hagree.2 htimely).2 _ rfl⟩

/-- The process ends before the commit, and the line stays without a row. -/
theorem not_files_agree_timedOut :
    ¬ ∀ r ws, Runs .standard "task" r ws → r.transaction = none → r.lines = r.notifications := by
  intro hall
  have hlines := hall _ _ (runs_line.step (.cut _ rfl)) rfl
  cases hlines

end Recorded

end AgentOrch
