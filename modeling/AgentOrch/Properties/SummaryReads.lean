import AgentOrch.Properties.Selections

/-!
# A page shows what the whole board shows

A page hands the projection the evidence of a card, and the flags that stand for the rest of its
history; the full snapshot hands it every event and every night.  Over tables that only the commands
have written, both are selections of the same history, every event has its time and there is no night,
so the projection gives one answer.
-/

namespace AgentOrch

open Py Json

namespace Kanban

section
variable {pf : Platform} {env : Environment} {db db' : Db} {cmd : Command} {card : Card}

/-! ## Nights -/

/-- No command writes a night. -/
lemma Effect.nights_eq {event : Event} (h : Effect pf env db cmd event db') :
    db'.nights = db.nights := by
  cases h with
  | rejected => rfl
  | quota _ _ _ _ _ _ _ _ hnights => exact hnights
  | created => rfl
  | moved => rfl

lemma nights_run (pf : Platform) (tasks : List TaskRow) (calls : List Call) :
    (run pf (Db.fresh tasks) calls).nights = [] := by
  refine @run_invariant pf (fun db => db.nights = []) tasks rfl ?_ calls
  intro db db' _ hdb hstep
  cases hstep with
  | idle => exact hdb
  | recorded _ _ heffect => rw [heffect.nights_eq, hdb]

/-! ## The projection of a selection -/

lemma times_known (hreads : db.ReadsBack pf) {events : List Event}
    (h : Selects pf db card events) : (events.any fun e => !eventTimeKnown e) = false := by
  rw [List.any_eq_false]
  intro e he
  obtain ⟨n, hn, htime⟩ := hreads.times e (mem_eventsOf.mp (h.subset e he)).1
  simp [eventTimeKnown, htime, hn]

/-- The projection does not depend on the selection. -/
lemma Selects.project_eq (hdb : db.Agrees) (hreads : db.ReadsBack pf) (hcard : card ∈ db.cards)
    {events events' : List Event} (h : Selects pf db card events) (h' : Selects pf db card events')
    (nights : List Night) (task : Option TaskRow) (flags : Flags) (place : Location) :
    project pf ⟨card, events, nights, task, flags, place⟩ =
      project pf ⟨card, events', nights, task, flags, place⟩ := by
  have hanomalies : ∀ note, anomalies ⟨card, events, nights, task, flags, place⟩ note =
      anomalies ⟨card, events', nights, task, flags, place⟩ note := by
    intro note
    simp only [anomalies, times_known hreads h, times_known hreads h']
  simp only [project, hanomalies, h.progressReport_eq hdb hreads hcard h',
    h.workerReport_eq hdb hreads hcard h', h.reportPresentation_eq hdb hreads hcard h']
  -- the rest of the projection does not look at the events
  rfl

/-- What a page shows of a card is what the full snapshot shows of it. -/
theorem page_project_eq_snapshot_project (pf : Platform) (hdepth : 3 ≤ pf.loadsDepth)
    (tasks : List TaskRow) (calls : List Call) (card : Card)
    (hcard : card ∈ (run pf (Db.fresh tasks) calls).cards) :
    (pageData pf (run pf (Db.fresh tasks) calls) card >>= project pf) =
      (snapshotData pf (run pf (Db.fresh tasks) calls) card >>= project pf) := by
  have hdb := agrees_run pf tasks calls
  have hreads : (run pf (Db.fresh tasks) calls).ReadsBack pf := readsBack_run tasks calls hdepth
  have hnights := nights_run pf tasks calls
  set db := run pf (Db.fresh tasks) calls
  have hpage : Selects pf db card (evidence pf.toRuntime (db.eventsOf card.cardId)) :=
    evidence_selects hdb hcard
  have hall : Selects pf db card
      ((db.eventsOf card.cardId).insertionSort fun e f => e.operationId ≤ f.operationId) :=
    all_selects hdb (List.perm_insertionSort _ _)
  have hnone : (db.nights.filter fun n => n.cardId = card.cardId) = [] := by rw [hnights]; rfl
  simp only [pageData, snapshotData, hnone, bind_assoc]
  cases hsummary : summary pf db card with
  | error e => rfl
  | ok s =>
      have hevents : s.events = evidence pf.toRuntime (db.eventsOf card.cardId) := by
        simp only [summary, bind_eq_ok, pure, Except.pure, Except.ok.injEq] at hsummary
        obtain ⟨-, -, rfl⟩ := hsummary
        rfl
      show project pf ⟨card, s.events, [], db.taskOf card, s.flags, s.location⟩ =
        project pf ⟨card, _, [], db.taskOf card, s.flags, s.location⟩
      rw [hevents]
      exact hpage.project_eq hdb hreads hcard hall [] _ _ _

/-- Over the tables of one request. -/
theorem page_project_eq_snapshot_project_created : createdTables.cards.length = 1 ∧
    ∀ card ∈ createdTables.cards,
      (pageData (hashingPlatform placeDigest (by decide)) createdTables card >>=
          project (hashingPlatform placeDigest (by decide))) =
        (snapshotData (hashingPlatform placeDigest (by decide)) createdTables card >>=
          project (hashingPlatform placeDigest (by decide))) := by
  refine ⟨by decide +kernel, fun card hcard => ?_⟩
  exact page_project_eq_snapshot_project (hashingPlatform placeDigest (by decide)) (by decide) []
    [⟨bareEnvironment, createRequest⟩] card hcard

end

end Kanban

end AgentOrch
