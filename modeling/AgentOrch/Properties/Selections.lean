import AgentOrch.Framework.Rising
import AgentOrch.Properties.CardReadback

/-!
# Selections of a history

A reader is handed some of the events of a card.  What it makes of them depends on the last event of
each kind only, because the revisions of accepted events rise; so a selection that keeps those events
answers as the whole history does.
-/

namespace AgentOrch

open Py Json Rising

namespace Kanban

/-- The revision of an event that has one. -/
def Event.revision (e : Event) : ℤ :=
  match e.resultRevision with
  | .int n => n
  | _ => 0

section
variable {pf : Platform} {db : Db} {card : Card}

/-! ## Rising revisions -/

lemma Journaled.getElem (h : Journaled db card) {i : ℕ}
    (hi : i < (db.history card.cardId).length) :
    (db.history card.cardId)[i].resultRevision = .int i := by
  have hmap := h.results
  have hlength : i < (revisionsBelow (db.history card.cardId).length).length := by
    simpa [revisionsBelow] using hi
  have hmapped : i < ((db.history card.cardId).map Event.resultRevision).length := by simpa using hi
  have hget : ((db.history card.cardId).map Event.resultRevision)[i] =
      (revisionsBelow (db.history card.cardId).length)[i] := by
    simp only [hmap]
  simpa [revisionsBelow] using hget

lemma Journaled.revision_of_mem (h : Journaled db card) {e : Event}
    (he : e ∈ db.history card.cardId) :
    e.resultRevision = .int e.revision ∧ 0 ≤ e.revision ∧ e.revision ≤ card.revision := by
  obtain ⟨i, hi, rfl⟩ := List.mem_iff_getElem.mp he
  have hrevision := h.getElem hi
  have hvalue : (db.history card.cardId)[i].revision = (i : ℤ) := by
    simp [Event.revision, hrevision]
  have hlength := h.revision
  exact ⟨by rw [hvalue, hrevision], by omega, by omega⟩

lemma Journaled.rising (h : Journaled db card) :
    IsRising Event.revision (db.history card.cardId) := by
  refine List.pairwise_iff_getElem.mpr fun i j hi hj hij => ?_
  have hleft := h.getElem hi
  have hright := h.getElem hj
  simp only [Event.revision, hleft, hright]
  exact_mod_cast hij

lemma key_int_lt {m n : ℤ} (h : m < n) : (Cell.int m).key < (Cell.int n).key := by
  show toLex ((2 : ℕ), toLex ((m : ℚ), ([] : List ℕ))) < toLex ((2 : ℕ), toLex ((n : ℚ), ([] : List ℕ)))
  refine Prod.Lex.toLex_lt_toLex.mpr (.inr ⟨rfl, Prod.Lex.toLex_lt_toLex.mpr (.inl ?_)⟩)
  show (m : ℚ) < n
  exact_mod_cast h

/-- The order of the rows of a query. -/
lemma Journaled.rising_rows (h : Journaled db card) :
    IsRising (fun e : Event => toLex (e.resultRevision.key, e.operationId))
      (db.history card.cardId) := by
  refine List.Pairwise.imp_of_mem ?_ h.rising
  intro a b ha hb hlt
  dsimp only
  rw [(h.revision_of_mem ha).1, (h.revision_of_mem hb).1]
  exact Prod.Lex.toLex_lt_toLex.mpr (.inl (key_int_lt hlt))

/-! ## What is selected -/

/-- The kinds of events a reader asks for. -/
def readerKinds (rt : Runtime) : List (Event → Bool) :=
  [isReport, isUserReport rt, isNonuserReport, isWorkerEvent rt, isScopeEdit rt]

/-- Some events of a card, with the last accepted one of each kind. -/
structure Selects (pf : Platform) (db : Db) (card : Card) (events : List Event) : Prop where
  subset : ∀ e ∈ events, e ∈ db.eventsOf card.cardId
  nodup : events.Nodup
  keeps : ∀ p ∈ readerKinds pf.toRuntime, ∀ e,
    ((db.history card.cardId).filter p).getLast? = some e → e ∈ events

lemma mem_history {e : Event} : e ∈ db.history card.cardId ↔
    e ∈ db.eventsOf card.cardId ∧ e.result = .accepted := by
  simp [Db.history]

lemma mem_eventsOf {e : Event} : e ∈ db.eventsOf card.cardId ↔
    e ∈ db.events ∧ e.cardId = some card.cardId := by
  simp [Db.eventsOf]

lemma eventsOf_operations (hdb : db.Agrees) :
    ((db.eventsOf card.cardId).map Event.operationId).Nodup :=
  hdb.operations.sublist (List.filter_sublist.map _)

/-- A query for the newest row of a kind finds the last event of that kind. -/
lemma newestRow_eq (h : Journaled db card) (p : Event → Bool) :
    newestRow ((db.history card.cardId).filter p) =
      ((db.history card.cardId).filter p).getLast? :=
  (keepsLast_self _).argmax (h.rising_rows.filter p)

lemma mem_evidence {rt : Runtime} {events : List Event} {e : Event}
    (hnodup : (events.map Event.operationId).Nodup) : e ∈ evidence rt events ↔
      ∃ p ∈ [isReport, isUserReport rt, isNonuserReport, isWorkerEvent rt, isBadEdit rt,
        isScopeEdit rt], newestRow ((events.filter fun e => e.result = .accepted).filter p) =
          some e := by
  set selected := [isReport, isUserReport rt, isNonuserReport, isWorkerEvent rt, isBadEdit rt,
    isScopeEdit rt].filterMap fun p =>
      newestRow ((events.filter fun e => e.result = .accepted).filter p) with hselected
  have hevents : ∀ e ∈ selected, e ∈ events := by
    intro e he
    obtain ⟨p, -, hp⟩ := List.mem_filterMap.mp he
    exact List.mem_of_mem_filter (List.mem_of_mem_filter (newestRow_mem hp))
  have hevidence : evidence rt events =
      (dictOf (selected.map fun e => (e.operationId, e))).map Prod.snd := rfl
  rw [hevidence]
  have hiff : e ∈ selected ↔ ∃ p ∈ [isReport, isUserReport rt, isNonuserReport, isWorkerEvent rt,
      isBadEdit rt, isScopeEdit rt],
        newestRow ((events.filter fun e => e.result = .accepted).filter p) = some e :=
    List.mem_filterMap
  rw [← hiff]
  constructor
  · intro he
    obtain ⟨q, hq, rfl⟩ := List.mem_map.mp he
    obtain ⟨f, hf, rfl⟩ := List.mem_map.mp (mem_of_mem_dictOf hq)
    exact hf
  · intro he
    have hkey : e.operationId ∈ dictKeys (dictOf (selected.map fun e => (e.operationId, e))) :=
      mem_dictKeys_dictOf.mpr (List.mem_map.mpr ⟨(e.operationId, e), List.mem_map.mpr ⟨e, he, rfl⟩,
        rfl⟩)
    obtain ⟨q, hq, hqkey⟩ := List.mem_map.mp hkey
    obtain ⟨f, hf, rfl⟩ := List.mem_map.mp (mem_of_mem_dictOf hq)
    -- an operation has one event
    obtain rfl : f = e := List.inj_on_of_nodup_map hnodup (hevents f hf) (hevents e he) hqkey
    exact List.mem_map.mpr ⟨_, hq, rfl⟩

lemma evidence_nodup (rt : Runtime) (events : List Event) : (evidence rt events).Nodup := by
  unfold evidence
  dsimp only
  generalize hselected : List.filterMap _ _ = selected
  have hkeys : ((dictOf (selected.map fun e => (e.operationId, e))).map Prod.snd).map
      Event.operationId = dictKeys (dictOf (selected.map fun e => (e.operationId, e))) := by
    rw [List.map_map]
    refine List.map_congr_left fun q hq => ?_
    obtain ⟨e, -, rfl⟩ := List.mem_map.mp (mem_of_mem_dictOf hq)
    rfl
  refine List.Nodup.of_map Event.operationId ?_
  rw [hkeys]
  exact nodup_dictOf _

/-- The summary of a card selects its evidence. -/
lemma evidence_selects (hdb : db.Agrees) (hcard : card ∈ db.cards) :
    Selects pf db card (evidence pf.toRuntime (db.eventsOf card.cardId)) where
  subset e he := by
    obtain ⟨p, -, hp⟩ := (mem_evidence (eventsOf_operations hdb)).mp he
    exact List.mem_of_mem_filter (List.mem_of_mem_filter (newestRow_mem hp))
  nodup := evidence_nodup _ _
  keeps p hp e he := by
    refine (mem_evidence (eventsOf_operations hdb)).mpr ⟨p, ?_, ?_⟩
    · simp only [readerKinds, List.mem_cons, List.not_mem_nil, or_false] at hp
      rcases hp with rfl | rfl | rfl | rfl | rfl <;> simp
    · exact (newestRow_eq (hdb.journaled card hcard) p).trans he

/-- So does a list of all its events. -/
lemma all_selects (hdb : db.Agrees) {events : List Event}
    (hperm : events.Perm (db.eventsOf card.cardId)) : Selects pf db card events where
  subset e he := hperm.mem_iff.mp he
  nodup := hperm.nodup_iff.mpr (List.Nodup.of_map _ (eventsOf_operations hdb))
  keeps p hp e he := by
    have hmem := List.mem_of_mem_filter (List.mem_of_getLast? he)
    exact hperm.mem_iff.mpr (mem_history.mp hmem).1

/-! ## The newest of a selection -/

lemma Selects.keepsLast {events : List Event} (h : Selects pf db card events) {p q : Event → Bool}
    (hp : p ∈ readerKinds pf.toRuntime)
    (hq : ∀ e ∈ db.eventsOf card.cardId, q e = true ↔ e.result = .accepted ∧ p e = true) :
    KeepsLast ((db.history card.cardId).filter p) (events.filter q) where
  subset e he := by
    obtain ⟨hmem, hqe⟩ := List.mem_filter.mp he
    obtain ⟨haccepted, hpe⟩ := (hq e (h.subset e hmem)).mp hqe
    exact List.mem_filter.mpr ⟨mem_history.mpr ⟨h.subset e hmem, haccepted⟩, hpe⟩
  last e he := by
    obtain ⟨hmem, hpe⟩ := List.mem_filter.mp (List.mem_of_getLast? he)
    obtain ⟨hevents, haccepted⟩ := mem_history.mp hmem
    exact List.mem_filter.mpr ⟨h.keeps p hp e he, (hq e hevents).mpr ⟨haccepted, hpe⟩⟩

/-- The revision of an event that is evidence, as its card has it. -/
lemma revision_of_evidence (hdb : db.Agrees) (hreads : db.ReadsBack pf) (hcard : card ∈ db.cards)
    {e : Event} (he : e ∈ db.eventsOf card.cardId) (haccepted : e.result = .accepted)
    (hevidence : isEvidence e = true) :
    e.resultRevision.within 1 card.revision = some e.revision := by
  obtain ⟨hrevision, -, hle⟩ :=
    (hdb.journaled card hcard).revision_of_mem (mem_history.mpr ⟨he, haccepted⟩)
  obtain ⟨n, hn, hvalue⟩ := hreads.positive e (mem_eventsOf.mp he).1 hevidence
  have heq : e.revision = n := by simp [Event.revision, hvalue]
  rw [hrevision]
  simp only [Cell.within]
  rw [if_pos ⟨by omega, hle⟩]

lemma withRevisions_eq {events : List Event}
    (h : ∀ e ∈ events, e.resultRevision.within 1 card.revision = some e.revision) :
    withRevisions card events = some (events.map fun e => (e.revision, e)) := by
  induction events with
  | nil => rfl
  | cons e rest ih =>
      have hrest := ih fun f hf => h f (List.mem_cons_of_mem e hf)
      unfold withRevisions at hrest ⊢
      rw [List.mapM_cons, h e List.mem_cons_self, hrest]
      rfl

/-- The newest event of a selection of evidence is the last one of the history. -/
lemma newest_of_keepsLast (h : Journaled db card) {p : Event → Bool} {kept : List Event}
    (hkept : KeepsLast ((db.history card.cardId).filter p) kept) :
    newest (kept.map fun e => (e.revision, e)) =
      ((db.history card.cardId).filter p).getLast?.map fun e => (e.revision, e) := by
  have hrising : IsRising (fun q : ℤ × Event => toLex (q.1, q.2.operationId))
      (((db.history card.cardId).filter p).map fun e => (e.revision, e)) := by
    refine List.pairwise_map.mpr ((h.rising.filter p).imp ?_)
    intro a b hlt
    exact Prod.Lex.toLex_lt_toLex.mpr (.inl hlt)
  have hpairs : KeepsLast (((db.history card.cardId).filter p).map fun e => (e.revision, e))
      (kept.map fun e => (e.revision, e)) := by
    constructor
    · intro q hq
      obtain ⟨e, he, rfl⟩ := List.mem_map.mp hq
      exact List.mem_map.mpr ⟨e, hkept.subset e he, rfl⟩
    · intro q hq
      rw [List.getLast?_map] at hq
      obtain ⟨e, he, rfl⟩ := Option.map_eq_some_iff.mp hq
      exact List.mem_map.mpr ⟨e, hkept.last e he, rfl⟩
  rw [newest, hpairs.argmax hrising, List.getLast?_map]

/-! ## Scope edits -/

lemma isScopeEdit_iff (hreads : db.ReadsBack pf) {e : Event} (he : e ∈ db.events)
    (hedit : e.kind = "edit") (haccepted : e.result = .accepted) :
    ∃ items, e.metadataDelta.loads pf.toRuntime = .ok (.obj items) ∧
      isScopeEdit pf.toRuntime e = (getValue "scope_fields_changed" items).truthy := by
  obtain ⟨items, fields, hloads, hsql, hget⟩ := (hreads.edits e he hedit haccepted).delta
  refine ⟨items, hloads, ?_⟩
  have hkind : isEdit e = true := by simp [isEdit, hedit]
  simp [isScopeEdit, hkind, hsql, jsonMember, hget, getValue]

/-- The scope edits among some events, later than a revision. -/
def laterScopeEdit (rt : Runtime) (started : ℤ) (events : List Event) : Bool :=
  (events.filter fun e => isScopeEdit rt e && decide (e.result = .accepted)).any fun e =>
    decide (started < e.revision)

lemma noLaterScopeEdit_eq (hdb : db.Agrees) (hreads : db.ReadsBack pf) (hcard : card ∈ db.cards)
    (started : ℤ) {events : List Event} (hsub : ∀ e ∈ events, e ∈ db.eventsOf card.cardId) :
    noLaterScopeEdit pf.toRuntime card started events =
      .ok (!laterScopeEdit pf.toRuntime started events) := by
  induction events with
  | nil => rfl
  | cons e rest ih =>
      have hrest := ih fun f hf => hsub f (List.mem_cons_of_mem e hf)
      have he := hsub e List.mem_cons_self
      by_cases hskip : e.kind ≠ "edit" ∨ e.result ≠ .accepted
      · rw [noLaterScopeEdit, if_pos hskip, hrest]
        have hnot : (isScopeEdit pf.toRuntime e && decide (e.result = .accepted)) = false := by
          rcases hskip with hkind | hresult
          · simp [isScopeEdit, isEdit, hkind]
          · simp [hresult]
        simp [laterScopeEdit, hnot]
      · rw [not_or, not_not, not_not] at hskip
        obtain ⟨hkind, haccepted⟩ := hskip
        have hevidence : isEvidence e = true := by simp [isEvidence, hkind, haccepted]
        have hwithin := revision_of_evidence hdb hreads hcard he haccepted hevidence
        obtain ⟨items, hloads, hscope⟩ :=
          isScopeEdit_iff hreads (mem_eventsOf.mp he).1 hkind haccepted
        rw [noLaterScopeEdit, if_neg (by simp [hkind, haccepted]), hwithin]
        simp only [demand, Option.elim_some, bind, Except.bind]
        by_cases hlater : started < e.revision
        · rw [if_pos hlater, hloads]
          simp only [hrest]
          cases htruthy : (getValue "scope_fields_changed" items).truthy with
          | true => simp [laterScopeEdit, hscope, htruthy, haccepted, hlater, pure,
              Except.pure]
          | false => simp [laterScopeEdit, hscope, htruthy]
        · rw [if_neg hlater, hrest]
          cases htruthy : isScopeEdit pf.toRuntime e <;>
            simp [laterScopeEdit, htruthy, haccepted, hlater]

/-- Whether a scope edit came later is known from the last one. -/
lemma Selects.laterScopeEdit_eq (hdb : db.Agrees) (hcard : card ∈ db.cards) {events : List Event}
    (h : Selects pf db card events) (started : ℤ) :
    laterScopeEdit pf.toRuntime started events =
      ((db.history card.cardId).filter (isScopeEdit pf.toRuntime)).any fun e =>
        decide (started < e.revision) := by
  have hkept := h.keepsLast (p := isScopeEdit pf.toRuntime)
    (q := fun e => isScopeEdit pf.toRuntime e && decide (e.result = .accepted))
    (by simp [readerKinds]) (fun e _ => by simp [and_comm])
  exact hkept.any_lt ((hdb.journaled card hcard).rising.filter _) started

/-- Whether a report is of the current scope does not depend on the selection. -/
lemma Selects.scopeCurrent_eq (hdb : db.Agrees) (hreads : db.ReadsBack pf) (hcard : card ∈ db.cards)
    {events events' : List Event} (h : Selects pf db card events) (h' : Selects pf db card events')
    (generation : ℤ) (digest : Value) (started : ℤ) :
    scopeCurrent pf card generation digest started events =
      scopeCurrent pf card generation digest started events' := by
  have hedits : noLaterScopeEdit pf.toRuntime card started events =
      noLaterScopeEdit pf.toRuntime card started events' := by
    rw [noLaterScopeEdit_eq hdb hreads hcard started h.subset,
      noLaterScopeEdit_eq hdb hreads hcard started h'.subset, h.laterScopeEdit_eq hdb hcard,
      h'.laterScopeEdit_eq hdb hcard]
  simp only [scopeCurrent, hedits]

/-! ## Reports -/

lemma isAcceptedReport_iff (e : Event) :
    isAcceptedReport e = true ↔ e.result = .accepted ∧ isReport e = true := by
  simp [isAcceptedReport, isReport, and_comm]

/-- A reader that asks for some of the reports finds the last of them. -/
lemma Selects.newestReport_eq (hdb : db.Agrees) (hreads : db.ReadsBack pf) (hcard : card ∈ db.cards)
    {events : List Event} (h : Selects pf db card events) {p q : Event → Bool}
    (hp : p ∈ readerKinds pf.toRuntime)
    (hq : ∀ e ∈ db.eventsOf card.cardId, q e = true ↔ e.result = .accepted ∧ p e = true)
    (hreport : ∀ e, p e = true → isReport e = true) :
    (events.filter q).isEmpty = ((db.history card.cardId).filter p).isEmpty ∧
      withRevisions card (events.filter q) =
        some ((events.filter q).map fun e => (e.revision, e)) ∧
      newest ((events.filter q).map fun e => (e.revision, e)) =
        ((db.history card.cardId).filter p).getLast?.map fun e => (e.revision, e) := by
  have hkept := h.keepsLast hp hq
  refine ⟨hkept.isEmpty, withRevisions_eq fun e he => ?_,
    newest_of_keepsLast (hdb.journaled card hcard) hkept⟩
  obtain ⟨hmem, hqe⟩ := List.mem_filter.mp he
  have hevent := h.subset e hmem
  obtain ⟨haccepted, hpe⟩ := (hq e hevent).mp hqe
  refine revision_of_evidence hdb hreads hcard hevent haccepted ?_
  rw [isEvidence, (isAcceptedReport_iff e).mpr ⟨haccepted, hreport e hpe⟩]
  rfl

/-- The newest report on record. -/
lemma Selects.progressReport_eq (hdb : db.Agrees) (hreads : db.ReadsBack pf)
    (hcard : card ∈ db.cards) {events events' : List Event} (h : Selects pf db card events)
    (h' : Selects pf db card events') :
    progressReport pf card events = progressReport pf card events' := by
  have hfind : ∀ {events : List Event}, Selects pf db card events → _ :=
    fun h => h.newestReport_eq hdb hreads hcard (p := isReport) (q := isAcceptedReport)
      (by simp [readerKinds]) (fun e _ => isAcceptedReport_iff e) (fun _ he => he)
  obtain ⟨hempty, hrevised, hnewest⟩ := hfind h
  obtain ⟨hempty', hrevised', hnewest'⟩ := hfind h'
  simp only [progressReport, hempty, hempty', hrevised, hrevised', hnewest, hnewest',
    Option.bind_some, h.scopeCurrent_eq hdb hreads hcard h']

/-! ## Attributed reports -/

/-- An accepted report is the user's when its row says so, and then its document does. -/
lemma userAttributed_eq (hreads : db.ReadsBack pf) {e : Event} (he : e ∈ db.events)
    (hreport : isAcceptedReport e = true) :
    userAttributed pf.toRuntime e = .ok (isUserReport pf.toRuntime e) := by
  obtain ⟨items, hloads, hsql, ⟨actor, hactor, hstated⟩, -⟩ := (hreads.reports e he hreport).document
  have hkind : isReport e = true := ((isAcceptedReport_iff e).mp hreport).2
  have hvalue : (Value.str actor).eqv (.str "USER") = decide (actor = ("USER" : Text)) := by
    rw [Value.eqv, beq_eq_decide]
  by_cases huser : e.actor = .text "USER"
  · simp [userAttributed, isUserReport, hkind, huser]
  · have hne : actor ≠ "USER" := by
      rintro rfl
      exact huser hactor
    have hmember : ((jsonMember "actor" (.obj items)).any fun v => v.eqv (.str "USER")) = false := by
      rw [getValue] at hstated
      cases hget : dictGet "actor" items with
      | none => simp [jsonMember, hget]
      | some v =>
          rw [hget] at hstated
          obtain rfl : v = .str actor := hstated
          simp [jsonMember, hget, hvalue, hne]
    rw [userAttributed, if_neg huser, hloads]
    simp only [hstated, hvalue, isUserReport, hkind, huser, hsql, Option.bind_some, hmember, hne]
    rfl

/-- The kind of the reports of the user, or of the others. -/
def isAttributed (rt : Runtime) (user : Bool) (e : Event) : Bool :=
  if user then isUserReport rt e else isNonuserReport e

lemma isReport_of_attributed {rt : Runtime} {user : Bool} {e : Event}
    (h : isAttributed rt user e = true) : isReport e = true := by
  cases user with
  | false =>
      have hkind : isNonuserReport e = true := h
      simp only [isNonuserReport, Bool.and_eq_true] at hkind
      exact hkind.1
  | true =>
      have hkind : isUserReport rt e = true := h
      simp only [isUserReport, Bool.and_eq_true] at hkind
      exact hkind.1

lemma isAttributed_mem (rt : Runtime) (user : Bool) : isAttributed rt user ∈ readerKinds rt := by
  cases user with
  | false =>
      show isNonuserReport ∈ readerKinds rt
      simp [readerKinds]
  | true =>
      show isUserReport rt ∈ readerKinds rt
      simp [readerKinds]

lemma attributedReports_eq (hreads : db.ReadsBack pf) (user : Bool) {events : List Event}
    (hsub : ∀ e ∈ events, e ∈ db.eventsOf card.cardId) :
    attributedReports pf.toRuntime user events =
      .ok (events.filter fun e => isAcceptedReport e && isAttributed pf.toRuntime user e) := by
  cases user with
  | false =>
      simp only [attributedReports, Bool.false_eq_true, if_false, pure, Except.pure,
        List.filter_filter]
      congr 1
      refine List.filter_congr fun e _ => ?_
      show (decide (e.actor ≠ .text "USER") && isAcceptedReport e) =
        (isAcceptedReport e && isNonuserReport e)
      rw [isNonuserReport, isAcceptedReport, isReport]
      cases decide (e.kind = "report-progress") <;> cases decide (e.result = .accepted) <;> simp
  | true =>
      have hkeep : keepIf (userAttributed pf.toRuntime) (events.filter isAcceptedReport) =
          .ok ((events.filter isAcceptedReport).filter (isUserReport pf.toRuntime)) :=
        keepIf_eq_filter fun e he => by
          obtain ⟨hmem, hreport⟩ := List.mem_filter.mp he
          exact userAttributed_eq hreads (mem_eventsOf.mp (hsub e hmem)).1 hreport
      simp only [attributedReports, if_true, hkeep, List.filter_filter]
      congr 1
      exact List.filter_congr fun e _ => Bool.and_comm _ _

/-- What is presented of the reports of the user, or of the others. -/
lemma Selects.reportPresentation_eq (hdb : db.Agrees) (hreads : db.ReadsBack pf)
    (hcard : card ∈ db.cards) {events events' : List Event} (h : Selects pf db card events)
    (h' : Selects pf db card events') (flags : Flags) (user : Bool) :
    reportPresentation pf card events flags user = reportPresentation pf card events' flags user := by
  have hfind : ∀ {events : List Event}, Selects pf db card events → _ :=
    fun h => h.newestReport_eq hdb hreads hcard (p := isAttributed pf.toRuntime user)
      (q := fun e => isAcceptedReport e && isAttributed pf.toRuntime user e)
      (isAttributed_mem _ user)
      (fun e _ => by
        rw [Bool.and_eq_true, isAcceptedReport_iff]
        exact ⟨fun ⟨⟨haccepted, _⟩, hkind⟩ => ⟨haccepted, hkind⟩,
          fun ⟨haccepted, hkind⟩ => ⟨⟨haccepted, isReport_of_attributed hkind⟩, hkind⟩⟩)
      (fun _ he => isReport_of_attributed he)
  obtain ⟨hempty, hrevised, hnewest⟩ := hfind h
  obtain ⟨hempty', hrevised', hnewest'⟩ := hfind h'
  simp only [reportPresentation, attributedReports_eq hreads user h.subset,
    attributedReports_eq hreads user h'.subset, bind, Except.bind, hempty, hempty', hrevised,
    hrevised', hnewest, hnewest', Option.bind_some, presentReport,
    h.scopeCurrent_eq hdb hreads hcard h']

/-! ## Observations -/

/-- An accepted report with an observation. -/
def hasObservation (rt : Runtime) (e : Event) : Bool :=
  isAcceptedReport e && (observationIn rt e).isSome

lemma isObservationEvent_eq (hreads : db.ReadsBack pf) {e : Event} (he : e ∈ db.events) :
    isObservationEvent pf.toRuntime e = .ok (hasObservation pf.toRuntime e) := by
  cases hreport : isAcceptedReport e with
  | false => simp [isObservationEvent, hasObservation, hreport]
  | true =>
      obtain ⟨items, hloads, -, -, hobservation, hbinding, -⟩ :=
        (hreads.reports e he hreport).document
      rw [isObservationEvent, if_pos hreport, hloads, hasObservation, hreport]
      simp only [hobservation, hbinding]
      simp

lemma isWorkerEvent_eq (hreads : db.ReadsBack pf) {e : Event} (he : e ∈ db.events)
    (hreport : isAcceptedReport e = true) :
    isWorkerEvent pf.toRuntime e = (observationIn pf.toRuntime e).isSome := by
  obtain ⟨items, -, hsql, -, hobservation, hbinding, -⟩ := (hreads.reports e he hreport).document
  have hkind : isReport e = true := ((isAcceptedReport_iff e).mp hreport).2
  rw [isWorkerEvent, hkind, hsql]
  simp only [hobservation, hbinding]
  simp

lemma hasObservation_iff (hreads : db.ReadsBack pf) {e : Event} (he : e ∈ db.events) :
    hasObservation pf.toRuntime e = true ↔
      e.result = .accepted ∧ isWorkerEvent pf.toRuntime e = true := by
  cases hreport : isAcceptedReport e with
  | false =>
      have hnot : ¬(e.result = .accepted ∧ isWorkerEvent pf.toRuntime e = true) := by
        rintro ⟨haccepted, hworker⟩
        simp only [isWorkerEvent, Bool.and_eq_true] at hworker
        rw [(isAcceptedReport_iff e).mpr ⟨haccepted, hworker.1⟩] at hreport
        cases hreport
      simp [hasObservation, hreport, hnot]
  | true =>
      rw [hasObservation, hreport, Bool.true_and, isWorkerEvent_eq hreads he hreport]
      exact ⟨fun hsome => ⟨((isAcceptedReport_iff e).mp hreport).1, hsome⟩, fun h => h.2⟩

/-- The accepted events of a card have distinct revisions. -/
lemma Selects.revisions_nodup (hdb : db.Agrees) (hcard : card ∈ db.cards) {events : List Event}
    (h : Selects pf db card events) {q : Event → Bool}
    (hq : ∀ e, q e = true → e.result = .accepted) :
    ((events.filter q).map Event.revision).Nodup := by
  have hrising := (hdb.journaled card hcard).rising
  have hhistory : ((db.history card.cardId).map Event.revision).Nodup :=
    List.pairwise_map.mpr (hrising.imp fun hlt => hlt.ne)
  refine (h.nodup.filter _).map_on ?_
  intro a ha b hb hab
  have hmem : ∀ e ∈ events.filter q, e ∈ db.history card.cardId := by
    intro e he
    obtain ⟨hevents, hqe⟩ := List.mem_filter.mp he
    exact mem_history.mpr ⟨h.subset e hevents, hq e hqe⟩
  exact List.inj_on_of_nodup_map hhistory (hmem a ha) (hmem b hb) hab

/-- The newest observation is the last one of the history. -/
lemma Selects.latestWorkerEvent_eq (hdb : db.Agrees) (hreads : db.ReadsBack pf)
    (hcard : card ∈ db.cards) {events : List Event} (h : Selects pf db card events) :
    latestWorkerEvent pf.toRuntime card events =
      match ((db.history card.cardId).filter (isWorkerEvent pf.toRuntime)).getLast? with
      | none => .ok none
      | some event => do
        let report ← progressEvent pf.toRuntime card event
        match report.worker with
        | none => .error (.valueError "worker_history_unknown")
        | some (observation, binding) => return some (report, observation, binding) := by
  obtain ⟨hempty, hrevised, hnewest⟩ := h.newestReport_eq hdb hreads hcard
    (p := isWorkerEvent pf.toRuntime) (q := hasObservation pf.toRuntime) (by simp [readerKinds])
    (fun e he => hasObservation_iff hreads (mem_eventsOf.mp he).1)
    (fun e he => by
      simp only [isWorkerEvent, Bool.and_eq_true] at he
      exact he.1)
  have hkeep : keepIf (isObservationEvent pf.toRuntime) events =
      .ok (events.filter (hasObservation pf.toRuntime)) :=
    keepIf_eq_filter fun e he => isObservationEvent_eq hreads (mem_eventsOf.mp (h.subset e he)).1
  have hdistinct : (((events.filter (hasObservation pf.toRuntime)).map
      fun e => (e.revision, e)).map Prod.fst).Nodup := by
    rw [List.map_map]
    refine h.revisions_nodup hdb hcard fun e he => ?_
    simp only [hasObservation, Bool.and_eq_true] at he
    exact ((isAcceptedReport_iff e).mp he.1).1
  rw [latestWorkerEvent, hkeep]
  simp only [bind, Except.bind, hempty, hrevised, hnewest, Option.elim_some, require, hdistinct,
    decide_true, if_true]
  cases hlast : ((db.history card.cardId).filter (isWorkerEvent pf.toRuntime)).getLast? with
  | none =>
      rw [List.getLast?_eq_none_iff.mp hlast]
      rfl
  | some event =>
      have hsome : ((db.history card.cardId).filter (isWorkerEvent pf.toRuntime)).isEmpty = false := by
        rw [List.isEmpty_eq_false_iff]
        rintro hnil
        rw [hnil] at hlast
        cases hlast
      rw [hsome]
      rfl

lemma Selects.workerReport_eq (hdb : db.Agrees) (hreads : db.ReadsBack pf) (hcard : card ∈ db.cards)
    {events events' : List Event} (h : Selects pf db card events) (h' : Selects pf db card events') :
    workerReport pf card events = workerReport pf card events' := by
  simp only [workerReport, h.latestWorkerEvent_eq hdb hreads hcard,
    h'.latestWorkerEvent_eq hdb hreads hcard, h.scopeCurrent_eq hdb hreads hcard h']

end

end Kanban

end AgentOrch
