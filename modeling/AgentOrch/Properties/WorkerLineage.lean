import AgentOrch.Properties.Selections

/-!
# The observations of a worker form one chain

Every accepted observation of a card names the one before it, so the observations of a card form one
chain.  A new attempt starts where the last one ended and was handed on, under a name of its own;
within an attempt the worker stays who it is, and what has ended only gains a handoff.

A command checks an observation against the newest one its reader finds.  That is the last of the
chain, so each step adds one link that fits, and a run of steps adds a chain of them.
-/

namespace AgentOrch

open Py Json

namespace Kanban

/-! ## Within an attempt -/

/-- A later handoff says what an earlier one said, and an acknowledged one says nothing else. -/
structure Handoff.Grows (before after : Handoff) : Prop where
  acknowledged : before.acknowledged = true → after = before
  owner : ∀ t, before.owner = some t → after.owner = some t
  nextStep : ∀ t, before.nextStep = some t → after.nextStep = some t
  resultSourceRef : ∀ t, before.resultSourceRef = some t → after.resultSourceRef = some t

/-- What a later observation of an attempt keeps of an earlier one. -/
structure Observation.Continues (before after : Observation) : Prop where
  supersedes : after.supersedesAttemptId = before.supersedesAttemptId
  provider : after.provider = before.provider
  threadId : after.threadId = before.threadId
  coordinator : after.coordinator = before.coordinator
  turnId : ∀ turn, before.turnId = some turn → after.turnId = some turn
  submitted : after.state = .submitted → before.state = .submitted
  ended : ∀ ending handoff, before.state = .ended ending handoff →
    ∃ handoff', after.state = .ended ending handoff' ∧ handoff.Grows handoff' ∧
      after.turnId = before.turnId ∧ after.observedAtMs = before.observedAtMs ∧
      after.sourceRef = before.sourceRef

lemma Handoff.Grows.trans {a b c : Handoff} (h : a.Grows b) (h' : b.Grows c) : a.Grows c where
  acknowledged ha := by
    obtain rfl := h.acknowledged ha
    exact h'.acknowledged ha
  owner t ht := h'.owner t (h.owner t ht)
  nextStep t ht := h'.nextStep t (h.nextStep t ht)
  resultSourceRef t ht := h'.resultSourceRef t (h.resultSourceRef t ht)

lemma Observation.Continues.trans {a b c : Observation} (h : a.Continues b) (h' : b.Continues c) :
    a.Continues c where
  supersedes := h'.supersedes.trans h.supersedes
  provider := h'.provider.trans h.provider
  threadId := h'.threadId.trans h.threadId
  coordinator := h'.coordinator.trans h.coordinator
  turnId turn hturn := h'.turnId turn (h.turnId turn hturn)
  submitted hc := h.submitted (h'.submitted hc)
  ended ending handoff ha := by
    obtain ⟨handoff', hb, hgrows, hturn, hobserved, hsource⟩ := h.ended ending handoff ha
    obtain ⟨handoff'', hc, hgrows', hturn', hobserved', hsource'⟩ := h'.ended ending handoff' hb
    exact ⟨handoff'', hc, hgrows.trans hgrows', hturn'.trans hturn, hobserved'.trans hobserved,
      hsource'.trans hsource⟩

lemma Handoff.grows_of_extends {before after : Handoff} (h : after.extends_ before = true) :
    before.Grows after := by
  simp only [Handoff.extends_, Bool.and_eq_true, Bool.or_eq_true, Bool.not_eq_true',
    Option.isNone_iff_eq_none, decide_eq_true_eq] at h
  obtain ⟨⟨⟨hacknowledged, howner⟩, hnext⟩, href⟩ := h
  constructor
  · intro htrue
    rcases hacknowledged with hfalse | heq
    · rw [htrue] at hfalse
      cases hfalse
    · exact heq
  · intro t ht
    rcases howner with hnone | heq
    · rw [ht] at hnone
      cases hnone
    · rw [heq, ht]
  · intro t ht
    rcases hnext with hnone | heq
    · rw [ht] at hnone
      cases hnone
    · rw [heq, ht]
  · intro t ht
    rcases href with hnone | heq
    · rw [ht] at hnone
      cases hnone
    · rw [heq, ht]

/-- What passes the checks of the same attempt continues it. -/
lemma continues_of_checks {o previous : Observation} {current : Bool} {u : Unit}
    (hidentity : o.sameIdentity previous = true)
    (hcheck : checkSameAttempt o previous current = .ok u) : previous.Continues o := by
  simp only [Observation.sameIdentity, Bool.and_eq_true, Bool.or_eq_true, decide_eq_true_eq,
    Option.isNone_iff_eq_none] at hidentity
  obtain ⟨⟨⟨⟨hsupersedes, hprovider⟩, hthread⟩, hcoordinator⟩, hturn⟩ := hidentity
  simp only [checkSameAttempt, bind_eq_ok, require_eq_ok] at hcheck
  obtain ⟨-, -, hcheck⟩ := hcheck
  refine ⟨hsupersedes, hprovider, hthread, hcoordinator, ?_, ?_, ?_⟩
  · intro turn hsome
    rcases hturn with hnone | heq
    · rw [hsome] at hnone
      cases hnone
    · rw [heq, hsome]
  · intro hsubmitted
    cases hstate : previous.state with
    | submitted => rfl
    | running =>
        rw [hstate] at hcheck
        simp [hsubmitted] at hcheck
    | unknown =>
        rw [hstate] at hcheck
        simp [hsubmitted] at hcheck
    | ended ending before =>
        rw [hstate, hsubmitted] at hcheck
        cases hcheck
  · intro ending before hstate
    rw [hstate] at hcheck
    cases hafter : o.state with
    | ended ending' after =>
        simp only [hafter, bind_eq_ok, require_eq_ok, Bool.and_eq_true, decide_eq_true_eq,
          Observation.sameWork] at hcheck
        obtain ⟨-, ⟨rfl, ⟨hturnId, hobserved⟩, hsource⟩, hgrows⟩ := hcheck
        exact ⟨after, rfl, Handoff.grows_of_extends hgrows, hturnId, hobserved, hsource⟩
    | submitted =>
        rw [hafter] at hcheck
        cases hcheck
    | running =>
        rw [hafter] at hcheck
        cases hcheck
    | unknown =>
        rw [hafter] at hcheck
        cases hcheck

/-! ## Chains -/

/-- The observations of a card, oldest first, each under the operation that recorded it: they form one
chain of attempts. -/
structure Lineage (chain : List (Text × Observation)) : Prop where
  first : ∀ a, chain[0]? = some a → a.2.previousObservationOperationId = none ∧
    a.2.supersedesAttemptId = none ∧ a.2.state = .submitted
  linked : ∀ (i : ℕ) (a b), chain[i]? = some a → chain[i + 1]? = some b →
    b.2.previousObservationOperationId = some a.1
  superseding : ∀ (i : ℕ) (a b), chain[i]? = some a → chain[i + 1]? = some b →
    a.2.attemptId ≠ b.2.attemptId →
      a.2.isHandedOn = true ∧ b.2.supersedesAttemptId = some a.2.attemptId ∧ b.2.state = .submitted
  unreused : ∀ (i j k : ℕ) (a b c), i < j → j < k → chain[i]? = some a → chain[j]? = some b →
    chain[k]? = some c → a.2.attemptId ≠ b.2.attemptId → c.2.attemptId ≠ a.2.attemptId
  continues : ∀ (i j : ℕ) (a b), i < j → chain[i]? = some a → chain[j]? = some b →
    a.2.attemptId = b.2.attemptId → a.2.Continues b.2

/-- What an observation may say at the end of a chain. -/
inductive Follows (chain : List (Text × Observation)) (o : Observation) : Prop
  | first (hempty : chain = [])
      (hprevious : o.previousObservationOperationId = none)
      (hsupersedes : o.supersedesAttemptId = none)
      (hsubmitted : o.state = .submitted)
  | continued {id : Text} {previous : Observation}
      (hlast : chain.getLast? = some (id, previous))
      (hprevious : o.previousObservationOperationId = some id)
      (hattempt : o.attemptId = previous.attemptId)
      (hcontinues : previous.Continues o)
  | superseding {id : Text} {previous : Observation}
      (hlast : chain.getLast? = some (id, previous))
      (hprevious : o.previousObservationOperationId = some id)
      (hsupersedes : o.supersedesAttemptId = some previous.attemptId)
      (hsubmitted : o.state = .submitted)
      (hhanded : previous.isHandedOn = true)
      (hfresh : ∀ p ∈ chain, p.2.attemptId ≠ o.attemptId)

lemma lineage_nil : Lineage [] := by
  constructor <;> simp

section
variable {α : Type} {l : List α} {x a : α} {i : ℕ}

lemma getElem?_concat_cases (h : (l ++ [x])[i]? = some a) :
    (i < l.length ∧ l[i]? = some a) ∨ (i = l.length ∧ a = x) := by
  rcases lt_trichotomy i l.length with hlt | heq | hgt
  · left
    rw [List.getElem?_append_left hlt] at h
    exact ⟨hlt, h⟩
  · right
    subst heq
    simp only [List.getElem?_concat_length, Option.some.injEq] at h
    exact ⟨rfl, h.symm⟩
  · rw [List.getElem?_eq_none (by simp; omega)] at h
    cases h

lemma lt_of_getElem? (h : l[i]? = some a) : i < l.length := (List.getElem?_eq_some_iff.mp h).1

end

section
variable {chain : List (Text × Observation)} {id : Text} {o : Observation}

/-- The last of a chain stands at its end. -/
lemma eq_last_of_getElem? {i : ℕ} {p q : Text × Observation} (hlast : chain.getLast? = some p)
    (hi : i + 1 = chain.length) (hq : chain[i]? = some q) : q = p := by
  rw [List.getLast?_eq_getElem?, show chain.length - 1 = i by omega, hq] at hlast
  exact Option.some.inj hlast

/-- An observation of the attempt of the last one continues every earlier one of the attempt. -/
lemma Lineage.continues_last (h : Lineage chain) {p : Text × Observation}
    (hlast : chain.getLast? = some p) (hattempt : o.attemptId = p.2.attemptId)
    (hcontinues : p.2.Continues o) {i : ℕ} {a : Text × Observation} (ha : chain[i]? = some a)
    (hsame : a.2.attemptId = o.attemptId) : a.2.Continues o := by
  have hi := lt_of_getElem? ha
  rcases Nat.lt_or_ge (i + 1) chain.length with hlt | hge
  · have hend : chain[chain.length - 1]? = some p := by rw [← List.getLast?_eq_getElem?, hlast]
    exact (h.continues i _ a p (by omega) ha hend (hsame.trans hattempt)).trans hcontinues
  · obtain rfl := eq_last_of_getElem? hlast (by omega) ha
    exact hcontinues

/-- Nor does it revive an attempt that was superseded. -/
lemma Lineage.unreused_last (h : Lineage chain) {p : Text × Observation}
    (hlast : chain.getLast? = some p) (hattempt : o.attemptId = p.2.attemptId) {i j : ℕ}
    {a b : Text × Observation} (hij : i < j) (ha : chain[i]? = some a) (hb : chain[j]? = some b)
    (hne : a.2.attemptId ≠ b.2.attemptId) : o.attemptId ≠ a.2.attemptId := by
  have hj := lt_of_getElem? hb
  rw [hattempt]
  rcases Nat.lt_or_ge (j + 1) chain.length with hlt | hge
  · have hend : chain[chain.length - 1]? = some p := by rw [← List.getLast?_eq_getElem?, hlast]
    exact h.unreused i j _ a b p hij (by omega) ha hb hend hne
  · obtain rfl := eq_last_of_getElem? hlast (by omega) hb
    exact hne.symm

/-- An observation that follows a chain prolongs it. -/
lemma Lineage.concat (h : Lineage chain) (hfollows : Follows chain o) :
    Lineage (chain ++ [(id, o)]) := by
  constructor
  · intro a ha
    rcases getElem?_concat_cases ha with ⟨-, ha⟩ | ⟨hzero, rfl⟩
    · exact h.first a ha
    · cases hfollows with
      | first _ hprevious hsupersedes hsubmitted => exact ⟨hprevious, hsupersedes, hsubmitted⟩
      | continued hlast =>
          rw [List.eq_nil_of_length_eq_zero hzero.symm] at hlast
          cases hlast
      | superseding hlast =>
          rw [List.eq_nil_of_length_eq_zero hzero.symm] at hlast
          cases hlast
  · intro i a b ha hb
    rcases getElem?_concat_cases hb with ⟨hlt, hb⟩ | ⟨hend, rfl⟩
    · rw [List.getElem?_append_left (by omega)] at ha
      exact h.linked i a b ha hb
    · rw [List.getElem?_append_left (by omega)] at ha
      cases hfollows with
      | first hempty => rw [hempty] at hend; cases hend
      | continued hlast hprevious => rw [eq_last_of_getElem? hlast hend ha]; exact hprevious
      | superseding hlast hprevious => rw [eq_last_of_getElem? hlast hend ha]; exact hprevious
  · intro i a b ha hb hne
    rcases getElem?_concat_cases hb with ⟨hlt, hb⟩ | ⟨hend, rfl⟩
    · rw [List.getElem?_append_left (by omega)] at ha
      exact h.superseding i a b ha hb hne
    · rw [List.getElem?_append_left (by omega)] at ha
      cases hfollows with
      | first hempty => rw [hempty] at hend; cases hend
      | continued hlast _ hattempt =>
          rw [eq_last_of_getElem? hlast hend ha] at hne
          exact absurd hattempt.symm hne
      | superseding hlast _ hsupersedes hsubmitted hhanded =>
          rw [eq_last_of_getElem? hlast hend ha]
          exact ⟨hhanded, hsupersedes, hsubmitted⟩
  · intro i j k a b c hij hjk ha hb hc hne
    rcases getElem?_concat_cases hc with ⟨hlt, hc⟩ | ⟨hend, rfl⟩
    · rw [List.getElem?_append_left (by omega)] at ha hb
      exact h.unreused i j k a b c hij hjk ha hb hc hne
    · rw [List.getElem?_append_left (by omega)] at ha hb
      cases hfollows with
      | first hempty => rw [hempty] at ha; cases ha
      | continued hlast _ hattempt => exact h.unreused_last hlast hattempt hij ha hb hne
      | superseding _ _ _ _ _ hfresh => exact (hfresh a (List.mem_of_getElem? ha)).symm
  · intro i j a b hij ha hb hsame
    rcases getElem?_concat_cases hb with ⟨hlt, hb⟩ | ⟨hend, rfl⟩
    · rw [List.getElem?_append_left (by omega)] at ha
      exact h.continues i j a b hij ha hb hsame
    · rw [List.getElem?_append_left (by omega)] at ha
      cases hfollows with
      | first hempty => rw [hempty] at ha; cases ha
      | continued hlast _ hattempt hcontinues =>
          exact h.continues_last hlast hattempt hcontinues ha hsame
      | superseding _ _ _ _ _ hfresh => exact absurd hsame (hfresh a (List.mem_of_getElem? ha))

end

/-! ## The observations on record -/

/-- The observation of an event, under its operation. -/
def observed (rt : Runtime) (event : Event) : Option (Text × Observation) :=
  if isAcceptedReport event then (observationIn rt event).map fun o => (event.operationId, o) else none

/-- The accepted observations of a card, oldest first, each under the operation that recorded it. -/
def Db.observations (rt : Runtime) (db : Db) (cardId : Text) : List (Text × Observation) :=
  (db.history cardId).filterMap (observed rt)

section
variable {pf : Platform} {env : Environment} {db db' : Db} {cmd : Command} {card : Card}

lemma demand_eq_ok {α : Type} {read : Option α} {message : Text} {a : α} :
    demand read message = .ok a ↔ read = some a := by
  cases read <;> simp [demand]

/-- A report that is read back has the observation its document holds. -/
lemma progressEvent_observation {rt : Runtime} {event : Event} {report : Report}
    (h : progressEvent rt card event = .ok report) : report.operationId = event.operationId ∧
      isAcceptedReport event = true ∧
      ∀ o b, report.worker = some (o, b) → observationIn rt event = some o := by
  simp only [progressEvent, bind_eq_ok, demand_eq_ok, require_eq_ok] at h
  obtain ⟨resultRevision, hrevision, stored, hstored, payload, hpayload, fields, -, texts, -, refs,
    hrefs, -, -, progress, -, worker, hworker, h⟩ := h
  obtain rfl := Except.ok.inj h
  have hreport : isAcceptedReport event = true := by
    simp only [Option.ite_none_right_eq_some, Bool.and_eq_true, decide_eq_true_eq] at hrevision
    obtain ⟨⟨⟨-, hkind⟩, haccepted⟩, -⟩ := hrevision
    simp [isAcceptedReport, hkind, haccepted]
  refine ⟨rfl, hreport, fun o b hsome => ?_⟩
  replace hsome : worker = some (o, b) := hsome
  subst hsome
  obtain rfl : stored = .obj payload := by
    split at hpayload
    · simp only [Option.ite_none_right_eq_some, Option.some.injEq] at hpayload
      rw [hpayload.2]
    · cases hpayload
  unfold readWorker at hworker
  split at hworker
  · simp only [bind_eq_ok, demand_eq_ok, require_eq_ok, pure, Except.pure, Except.ok.injEq,
      Option.some.injEq, Prod.mk.injEq] at hworker
    obtain ⟨-, -, o', hobservation, b', -, rfl, rfl⟩ := hworker
    rw [observationIn, hstored]
    simp only [hrefs, Option.bind_some, hobservation]
    rfl
  · split at hworker
    · cases hworker
    · cases hworker

/-- The events with observations are the worker events of the history. -/
lemma observations_eq (hreads : db.ReadsBack pf) (cardId : Text) :
    db.observations pf.toRuntime cardId =
      ((db.history cardId).filter (isWorkerEvent pf.toRuntime)).filterMap
        (observed pf.toRuntime) := by
  rw [Db.observations, List.filterMap_filter]
  refine List.filterMap_congr fun e he => ?_
  have hevent : e ∈ db.events ∧ e.result = .accepted := by
    simp only [Db.history, Db.eventsOf, List.mem_filter, decide_eq_true_eq] at he
    exact ⟨he.1.1, he.2⟩
  cases hworker : isWorkerEvent pf.toRuntime e with
  | true => rfl
  | false =>
      have hnot : hasObservation pf.toRuntime e = false := by
        rw [Bool.eq_false_iff]
        intro htrue
        rw [((hasObservation_iff hreads hevent.1).mp htrue).2] at hworker
        cases hworker
      simp only [hasObservation, Bool.and_eq_false_iff, Option.isSome_eq_false_iff,
        Option.isNone_iff_eq_none] at hnot
      rcases hnot with hreport | hnone
      · simp [observed, hreport]
      · simp [observed, hnone]

/-- An attempt that no report names is new to the chain. -/
lemma fresh_of_not_reused (hreads : db.ReadsBack pf) {attemptId : Text}
    (h : isReused pf.toRuntime (db.eventsOf card.cardId) attemptId = false) :
    ∀ p ∈ db.observations pf.toRuntime card.cardId, p.2.attemptId ≠ attemptId := by
  rintro p hp rfl
  obtain ⟨e, he, hobserved⟩ := List.mem_filterMap.mp hp
  obtain ⟨hmem, -⟩ := mem_history.mp he
  simp only [observed, Option.ite_none_right_eq_some, Option.map_eq_some_iff] at hobserved
  obtain ⟨hreport, o, ho, rfl⟩ := hobserved
  obtain ⟨items, -, hsql, -, -, -, hattempt⟩ :=
    (hreads.reports e (mem_eventsOf.mp hmem).1 hreport).document
  have hnames := List.any_eq_false.mp h e hmem
  rw [hreport, hsql, Option.bind_some, hattempt o ho] at hnames
  simp [Value.eqv] at hnames

/-- An observation that is given a binding follows the chain of its card. -/
lemma workerBinding_follows (hdb : db.Agrees) (hreads : db.ReadsBack pf) (hcard : card ∈ db.cards)
    {o : Observation} {b : WorkerBinding} (h : workerBinding pf db card o = .ok b) :
    Follows (db.observations pf.toRuntime card.cardId) o := by
  simp only [workerBinding, bind_eq_ok, require_eq_ok] at h
  obtain ⟨s, hsummary, -, -, latest, hlatest, h⟩ := h
  have hevents : s.events = evidence pf.toRuntime (db.eventsOf card.cardId) := by
    simp only [summary, bind_eq_ok, pure, Except.pure, Except.ok.injEq] at hsummary
    obtain ⟨-, -, rfl⟩ := hsummary
    rfl
  rw [hevents, (evidence_selects hdb hcard).latestWorkerEvent_eq hdb hreads hcard] at hlatest
  have hchain := observations_eq hreads card.cardId
  cases hlast : ((db.history card.cardId).filter (isWorkerEvent pf.toRuntime)).getLast? with
  | none =>
      rw [hlast] at hlatest
      obtain rfl := Except.ok.inj hlatest
      simp only [bind_eq_ok, require_eq_ok, Bool.and_eq_true, Option.isNone_iff_eq_none,
        decide_eq_true_eq] at h
      obtain ⟨-, ⟨⟨hsupersedes, hprevious⟩, hsubmitted⟩, -⟩ := h
      refine .first ?_ hprevious hsupersedes hsubmitted
      rw [hchain, List.getLast?_eq_none_iff.mp hlast]
      rfl
  | some event =>
      simp only [hlast, bind_eq_ok] at hlatest
      obtain ⟨report, hreport, hlatest⟩ := hlatest
      obtain ⟨hid, haccepted, hobservation⟩ := progressEvent_observation hreport
      split at hlatest
      · cases hlatest
      next previous binding hworker =>
        obtain rfl := Except.ok.inj hlatest
        have hend : (db.observations pf.toRuntime card.cardId).getLast? =
            some (report.operationId, previous) := by
          obtain ⟨front, hfront⟩ := List.getLast?_eq_some_iff.mp hlast
          have hobserved : observed pf.toRuntime event = some (report.operationId, previous) := by
            rw [observed, if_pos haccepted, hobservation _ _ hworker, hid]
            rfl
          rw [hchain, hfront, List.filterMap_append, List.filterMap_cons_some hobserved,
            List.filterMap_nil, List.getLast?_concat]
        simp only [bind_eq_ok, require_eq_ok, decide_eq_true_eq] at h
        obtain ⟨-, -, -, hprevious, h⟩ := h
        split at h
        next hattempt =>
          simp only [bind_eq_ok, require_eq_ok] at h
          obtain ⟨-, hidentity, current, -, _, hcheck, -⟩ := h
          exact .continued hend hprevious hattempt (continues_of_checks hidentity hcheck)
        next hattempt =>
          simp only [bind_eq_ok, require_eq_ok, Bool.and_eq_true, decide_eq_true_eq,
            Bool.not_eq_true'] at h
          obtain ⟨-, ⟨hsupersedes, hsubmitted⟩, -, hhanded, -, hreused, -⟩ := h
          exact .superseding hend hprevious hsupersedes hsubmitted hhanded
            (fresh_of_not_reused hreads hreused)

/-! ## Every run -/

lemma Effect.cardId_of_report {event : Event} (h : Effect pf env db cmd event db')
    (hdepth : 3 ≤ pf.loadsDepth) (hcmd : IsCommand pf cmd) (hreport : isAcceptedReport event = true) :
    ∃ card ∈ db.cards, event.cardId = some card.cardId ∧
      (observationIn pf.toRuntime event = none ∨
        ∃ o b, workerBinding pf db card o = .ok b ∧ observationIn pf.toRuntime event = some o) := by
  have hverb : cmd.verb = .reportProgress := by
    by_contra hne
    rw [not_report h.kind_eq hne] at hreport
    cases hreport
  cases h with
  | rejected _ _ _ _ hresult => simp [isAcceptedReport, hresult] at hreport
  | quota hquota => rcases hquota with hq | hq | hq <;> exact absurd (hq.symm.trans hverb) (by decide)
  | created hcreate => exact absurd (hcreate.symm.trans hverb) (by decide)
  | @moved card _ _ _ _ hnamed hguard hchange =>
      exact ⟨card, mem_of_card hnamed, rfl,
        (reported_of_moved hdepth hcmd hnamed hguard hchange rfl hverb).2⟩

lemma observations_concat {rt : Runtime} {event : Event} (h : db'.events = db.events ++ [event])
    (id : Text) : db'.observations rt id = db.observations rt id ++
      if event.cardId = some id then (observed rt event).toList else [] := by
  rw [Db.observations, history_concat h, List.filterMap_append, Db.observations]
  congr 1
  by_cases hid : event.cardId = some id
  · by_cases haccepted : event.result = .accepted
    · cases hobserved : observed rt event <;> simp [hid, haccepted, hobserved]
    · have hnone : observed rt event = none := by
        simp [observed, isAcceptedReport, haccepted]
      simp [hid, haccepted, hnone]
  · simp [hid]

/-- A step adds at most one observation to a chain, and one that follows it. -/
lemma Step.lineage (hdepth : 3 ≤ pf.loadsDepth) (hdb : db.Agrees) (hreads : db.ReadsBack pf)
    (h : Step pf db db') {id : Text} (hlineage : Lineage (db.observations pf.toRuntime id)) :
    Lineage (db'.observations pf.toRuntime id) := by
  cases h with
  | idle => exact hlineage
  | @recorded _ _ event _ hcmd _ heffect =>
      rw [observations_concat heffect.events_eq]
      by_cases hid : event.cardId = some id
      · rw [if_pos hid]
        cases hobserved : observed pf.toRuntime event with
        | none =>
            rw [Option.toList_none, List.append_nil]
            exact hlineage
        | some p =>
            simp only [observed, Option.ite_none_right_eq_some, Option.map_eq_some_iff] at hobserved
            obtain ⟨hreport, o, ho, rfl⟩ := hobserved
            obtain ⟨card, hcard, hcardId, hnone | ⟨o', b, hbound, ho'⟩⟩ :=
              heffect.cardId_of_report hdepth hcmd hreport
            · rw [hnone] at ho
              cases ho
            · obtain rfl := Option.some.inj (ho'.symm.trans ho)
              obtain rfl : id = card.cardId := Option.some.inj (hid.symm.trans hcardId)
              exact hlineage.concat (workerBinding_follows hdb hreads hcard hbound)
      · rw [if_neg hid, List.append_nil]
        exact hlineage

lemma lineage_run (tasks : List TaskRow) (calls : List Call) (hdepth : 3 ≤ pf.loadsDepth)
    (id : Text) : Lineage ((run pf (Db.fresh tasks) calls).observations pf.toRuntime id) := by
  have hrun := @run_invariant pf
    (fun db => db.ReadsBack pf ∧ Lineage (db.observations pf.toRuntime id)) tasks
    ⟨readsBack_run tasks [] hdepth, lineage_nil⟩
    (fun db db' hagrees hdb hstep => ⟨hstep.readsBack hdepth hagrees hdb.1,
      hstep.lineage hdepth hagrees hdb.1 hdb.2⟩) calls
  exact hrun.2

/-- The accepted worker observations of a card form one chain of attempts, and every accepted report
that carries an observation is in it. -/
structure WorkerLineage (rt : Runtime) (db : Db) (cardId : Text) : Prop where
  lineage : Lineage (db.observations rt cardId)
  complete : ∀ e ∈ db.history cardId, e.kind = "report-progress" → ∀ items,
    e.payload.loads rt = .ok (.obj items) → ("worker_observation" : Text) ∈ dictKeys items →
      ∃ o, (e.operationId, o) ∈ db.observations rt cardId ∧
        ∃ refs, readSources (getValue "source_refs" items) = some refs ∧
          validateWorkerObservation (getValue "worker_observation" items) refs = .ok o

theorem worker_lineage (pf : Platform) (hdepth : 3 ≤ pf.loadsDepth) (tasks : List TaskRow)
    (calls : List Call) (cardId : Text) :
    WorkerLineage pf.toRuntime (run pf (Db.fresh tasks) calls) cardId := by
  have hreads : (run pf (Db.fresh tasks) calls).ReadsBack pf := readsBack_run tasks calls hdepth
  refine ⟨lineage_run tasks calls hdepth cardId, ?_⟩
  intro e he hkind items hloads hkey
  have hevent : e ∈ (run pf (Db.fresh tasks) calls).events ∧ e.result = .accepted := by
    simp only [Db.history, Db.eventsOf, List.mem_filter, decide_eq_true_eq] at he
    exact ⟨he.1.1, he.2⟩
  have hreport : isAcceptedReport e = true := by simp [isAcceptedReport, hkind, hevent.2]
  obtain ⟨items', hloads', -, -, hobservation, -⟩ := (hreads.reports e hevent.1 hreport).document
  obtain rfl : items = items' := Value.obj.inj (Except.ok.inj (hloads.symm.trans hloads'))
  obtain ⟨o, ho⟩ := Option.isSome_iff_exists.mp (hobservation.mp hkey)
  refine ⟨o, List.mem_filterMap.mpr ⟨e, he, by rw [observed, if_pos hreport, ho]; rfl⟩, ?_⟩
  rw [observationIn, hloads] at ho
  obtain ⟨refs, hrefs, hvalid⟩ := Option.bind_eq_some_iff.mp ho
  refine ⟨refs, hrefs, ?_⟩
  cases hread : validateWorkerObservation (getValue "worker_observation" items) refs with
  | error e => rw [hread] at hvalid; cases hvalid
  | ok o' =>
      rw [hread] at hvalid
      rw [Option.some.inj hvalid]

theorem worker_lineage_created :
    WorkerLineage (hashingPlatform placeDigest (by decide)).toRuntime createdTables "c" :=
  worker_lineage (hashingPlatform placeDigest (by decide)) (by decide) []
    [⟨bareEnvironment, createRequest⟩] "c"

end

end Kanban

end AgentOrch
