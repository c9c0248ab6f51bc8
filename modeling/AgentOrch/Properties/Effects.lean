import AgentOrch.Construction.Kanban.Commands

/-!
# What one kanban command does

Every command that is not refused by its shape appends one event.  `Effect` lists what else may
happen: nothing, a change of the quota tables, a new card, or one card moved by one revision.  For a
card that moves, `Changes` says per command what was checked and what is assigned; no later proof
unfolds a handler.
-/

namespace AgentOrch

open Py Json

namespace Kanban

/-! ## The event of an accepted command -/

/-- What `_accept` inserts. -/
def acceptedEvent (clock : Clock) (cmd : Command) (cardId : Text) (resultRevision : ℤ)
    (payload delta : Text) : Event where
  operationId := cmd.operationId
  payloadHash := .text cmd.digest
  kind := cmd.verb.name
  cardId := some cardId
  taskId := .null
  expectedRevision := submittedRevision cmd.payload
  resultRevision := .int resultRevision
  actor := .text cmd.actor
  time := .int clock.now
  result := .accepted
  reason := .null
  payload := .text payload
  metadataDelta := .text delta

/-- The answer tells what the event records. -/
structure Shows (out : Outcome) (event : Event) : Prop where
  command : out.command = event.kind
  operationId : out.operationId = event.operationId
  result : out.result = event.result
  reason : out.reason = event.reason
  revision : out.revision = event.resultRevision

section
variable (pf : Platform) (env : Environment) (db : Db) (cmd : Command)

/-! ## The change of a card -/

/-- What a command that passes its checks assigns to its card and records. -/
inductive Changes (card : Card) : Change → Prop
  | reported {refs : List Text} {digest event : Text} {binding : List (Text × Value)}
      (hverb : cmd.verb = .reportProgress)
      (hrefs : validateReport cmd = .ok refs)
      (hdigest : progressScopeDigest pf card = .ok digest)
      (hbinding : reportBinding pf db card cmd.payload refs = .ok binding)
      (hevent : jsonText pf.toRuntime
        (.obj (reportEvent card digest cmd.payload refs binding)) = .ok event) :
      Changes card ⟨id, ⟨event,
        [("progress_reported", .bool true), ("execution_verified", .bool false)], []⟩⟩
  | placed {place : Location} {payload : Text}
      (hverb : cmd.verb = .place)
      (hplace : destination (getValue "destination" cmd.payload) = some place) :
      Changes card ⟨id, ⟨payload, [("queue_location", getValue "destination" cmd.payload)], []⟩⟩
  | edited {fields : List (Field × Value)} {stored : List (Field × Option Text)} {payload : Text}
      {marks : List (Text × Value)}
      (hverb : cmd.verb = .edit)
      (hfields : readFields (getValue "fields" cmd.payload) = .ok fields)
      (hstored : storable pf.toRuntime fields = .ok stored)
      (hmarks : marks.Sublist
        [(("approval_revoked" : Text), .bool true), (("manual_state" : Text), .str "inbox")]) :
      Changes card ⟨fun card =>
        (if !(touchedScope fields).isEmpty then card.scopeEdited else card).assignAll stored,
        ⟨payload, storedPairs stored ++ marks ++
          [(("scope_fields_changed" : Text), .arr ((touchedScope fields).map .str))], []⟩⟩
  | approved {frozen : List (Text × Value)} {payload digest : Text}
      {delta extra : List (Text × Value)}
      (hverb : cmd.verb = .approve)
      (hfrozen : buildApprovalPayload pf env card = .ok frozen)
      (hpayload : canonicalText pf.toRuntime (.obj frozen) = .ok payload)
      (hdigest : canonicalHash pf (.obj frozen) = .ok digest) :
      Changes card ⟨fun card =>
        card.approved ⟨cmd.actor, env.clock.now, digest, cmd.operationId⟩ frozen,
        ⟨payload, delta, extra⟩⟩
  | invalidated {target : ManualState} {reason : Text} {record : Record}
      (hverb : cmd.verb = .withdraw ∨ cmd.verb = .return_)
      (htarget : target = .inbox ∨ target = .returned) :
      Changes card ⟨fun card =>
        let card := card.revoked
        { card with
          manualState := target
          lastReason := some reason }, record⟩
  | archived {reason : Text} {record : Record}
      (hverb : cmd.verb = .archive) :
      Changes card ⟨fun card =>
        { card with
          manualState := .archived
          lastReason := some reason }, record⟩
  | paused {reason : Text} {record : Record}
      (hverb : cmd.verb = .pause) :
      Changes card ⟨fun card => { card with lastReason := some reason }, record⟩
  | finished {reason : Text} {record : Record}
      (hverb : cmd.verb = .done)
      (happroved : card.approval.isSome = true) :
      Changes card ⟨fun card =>
        { card with
          manualState := .done
          lastReason := some reason
          lastEvidenceEventId := some cmd.operationId }, record⟩

/-- What a command does to the tables, beside the event it inserts. -/
inductive Effect : Event → Db → Prop
  | rejected {event : Event}
      (hid : event.operationId = cmd.operationId)
      (hhash : event.payloadHash = .text cmd.digest)
      (hkind : event.kind = cmd.verb.name)
      (htime : event.time = .int env.clock.now)
      (hresult : event.result = .rejected)
      (hcard : ∀ id, event.cardId = some id → ∃ card ∈ db.cards, card.cardId = id) :
      Effect event (db.insertEvent event)
  | quota {event : Event} {after : Db}
      (hverb : cmd.verb = .quotaCliAttempt ∨ cmd.verb = .quotaSnapshot ∨ cmd.verb = .quotaInvalidate)
      (hid : event.operationId = cmd.operationId)
      (hhash : event.payloadHash = .text cmd.digest)
      (hkind : event.kind = cmd.verb.name)
      (htime : event.time = .int env.clock.now)
      (hcard : event.cardId = none)
      (hcards : after.cards = db.cards)
      (hevents : after.events = db.events ++ [event])
      (hnights : after.nights = db.nights)
      (htasks : after.tasks = db.tasks) :
      Effect event after
  | created {card : Card} {stored : List (Field × Option Text)} {payload delta : Text}
      (hverb : cmd.verb = .create)
      (hvalid : validateCreate pf env.clock db cmd = .ok (card, stored))
      (hdelta : jsonText pf.toRuntime (.obj ((("manual_state" : Text), .str "inbox") ::
        storedPairs stored ++ [(("queue_location" : Text), .str "backlog")])) = .ok delta) :
      Effect (acceptedEvent env.clock cmd card.cardId 0 payload delta)
        ({ db with cards := db.cards ++ [card] }.insertEvent
          (acceptedEvent env.clock cmd card.cardId 0 payload delta))
  | moved {card : Card} {change : Change} {delta : Text} {allowTerminal allowClaimed : Bool}
      (hcard : db.card (getValue "card_id" cmd.payload) = some card)
      (hguard : guardCard (some card) cmd.payload allowTerminal allowClaimed = .ok card)
      (hchange : Changes pf env db cmd card change)
      (hgeneration : (change.assign card).approvalGeneration ≤ maxRevision)
      (hchecks : (card.moved env.clock change.assign).satisfiesChecks = true)
      (hdelta : jsonText pf.toRuntime (.obj change.record.delta) = .ok delta) :
      Effect (acceptedEvent env.clock cmd card.cardId (card.revision + 1) change.record.payload delta)
        ((db.update card.cardId card.revision
            fun card => card.moved env.clock change.assign).insertEvent
          (acceptedEvent env.clock cmd card.cardId (card.revision + 1) change.record.payload delta))

end

section
variable {pf : Platform} {env : Environment} {db db' : Db} {cmd : Command} {out : Outcome}

/-! ## Rejecting and moving -/

lemma card_eq_some {v : Value} {card : Card} (h : db.card v = some card) :
    v = .str card.cardId ∧ db.cards.find? (fun c => c.cardId = card.cardId) = some card := by
  unfold Db.card at h
  split at h
  next id =>
    split at h
    · exact absurd h (by simp)
    · have hid : card.cardId = id := by simpa using List.find?_some h
      subst hid
      exact ⟨rfl, h⟩
  · exact absurd h (by simp)

lemma mem_of_card {v : Value} {card : Card} (h : db.card v = some card) : card ∈ db.cards :=
  List.mem_of_find?_eq_some (card_eq_some h).2

/-- The card that is found is the one an update of its revision finds. -/
lemma find_target {v : Value} {card : Card} (h : db.card v = some card) :
    db.cards.find? (isTarget card.cardId card.revision) = some card := by
  obtain ⟨-, before, after, hsplit, hbefore⟩ :=
    List.find?_eq_some_iff_append.mp (card_eq_some h).2
  refine List.find?_eq_some_iff_append.mpr ⟨by simp [isTarget], before, after, hsplit, ?_⟩
  intro c hc
  have hne := hbefore c hc
  simp only [Bool.not_eq_true', decide_eq_false_iff_not] at hne
  simp [isTarget, hne]

lemma reject_effect {reason : Text} {shown : Value} {card : Option Card}
    (hcard : ∀ c, card = some c → c ∈ db.cards)
    (h : reject pf.toRuntime env.clock db cmd reason shown card = .ok (out, db')) :
    ∃ event, Effect pf env db cmd event db' ∧ Shows out event := by
  simp only [reject, bind_eq_ok] at h
  obtain ⟨recorded, -, h⟩ := h
  simp only [pure, Except.pure, Except.ok.injEq, Prod.mk.injEq] at h
  obtain ⟨rfl, rfl⟩ := h
  refine ⟨_, .rejected rfl rfl rfl rfl rfl ?_, ⟨rfl, rfl, rfl, rfl, rfl⟩⟩
  intro id hid
  cases card with
  | none => exact absurd hid (by simp)
  | some c => exact ⟨c, hcard c rfl, Option.some.inj hid⟩

lemma accept_eq_ok {rt : Runtime} {clock : Clock} {cardId : Text} {revision : ℤ} {record : Record}
    (h : accept rt clock db cmd cardId revision record = .ok (out, db')) :
    ∃ delta, jsonText rt (.obj record.delta) = .ok delta ∧
      db' = db.insertEvent (acceptedEvent clock cmd cardId revision record.payload delta) ∧
      Shows out (acceptedEvent clock cmd cardId revision record.payload delta) := by
  simp only [accept, bind_eq_ok] at h
  obtain ⟨delta, hdelta, h⟩ := h
  simp only [pure, Except.pure, Except.ok.injEq, Prod.mk.injEq] at h
  obtain ⟨rfl, rfl⟩ := h
  exact ⟨delta, hdelta, rfl, ⟨rfl, rfl, rfl, rfl, rfl⟩⟩

/-- An update that succeeds is the update of its target, and keeps the constraints. -/
lemma casUpdate_eq_some {clock : Clock} {cardId : Text} {expected : ℤ} {assign : Card → Card}
    (h : casUpdate clock db cardId expected assign = .ok (some db')) :
    ∃ card, db.cards.find? (isTarget cardId expected) = some card ∧
      (assign card).approvalGeneration ≤ maxRevision ∧
      (card.moved clock assign).satisfiesChecks = true ∧
      db' = db.update cardId expected fun card => card.moved clock assign := by
  unfold casUpdate at h
  split at h
  · exact absurd h (by simp)
  next card hcard =>
    dsimp only at h
    split at h
    · exact absurd h (by simp)
    next hmax =>
      split at h
      · exact absurd h (by simp)
      next hchecks =>
        refine ⟨card, hcard, ?_, by simpa using hchecks,
          (Option.some.inj (Except.ok.inj h)).symm⟩
        push Not at hmax
        exact hmax.2

lemma guardCard_eq_ok {card : Option Card} {payload : List (Text × Value)} {terminal claimed : Bool}
    {current : Card} (h : guardCard card payload terminal claimed = .ok current) :
    card = some current ∧ getValue "expected_revision" payload = .int current.revision ∧
      validRevision current.revision = true ∧ current.revision ≠ maxRevision ∧
      (terminal = false → current.manualState.isTerminal = false) ∧
      (claimed = false → current.taskId = none) := by
  cases card with
  | none => exact absurd h (by simp [guardCard])
  | some found =>
      simp only [guardCard] at h
      split at h
      next expected hexpected =>
        split at h
        · exact absurd h (by simp)
        next hvalid =>
          split at h
          · exact absurd h (by simp)
          next hrevision =>
            split at h
            · exact absurd h (by simp)
            next hmax =>
              split at h
              · exact absurd h (by simp)
              next hterminal =>
                split at h
                · exact absurd h (by simp)
                next hclaimed =>
                  have hfound : found = current := Except.ok.inj h
                  subst hfound
                  push Not at hrevision
                  subst hrevision
                  refine ⟨rfl, hexpected, by simpa using hvalid, hmax, ?_, ?_⟩
                  · intro ht
                    simpa [ht] using hterminal
                  · intro hc
                    simpa [hc] using hclaimed
      · exact absurd h (by simp)

/-- A command that moves a card is rejected, or it passes its checks and moves the card. -/
lemma mutate_eq_ok {shown : Value} {terminal claimed : Bool} {lost : Stop}
    {body : Card → Except Stop Change}
    (h : mutate pf.toRuntime env.clock db cmd shown terminal claimed lost body = .ok (out, db')) :
    (∃ reason, reject pf.toRuntime env.clock db cmd reason shown
        (db.card (getValue "card_id" cmd.payload)) = .ok (out, db')) ∨
      ∃ card change delta, db.card (getValue "card_id" cmd.payload) = some card ∧
        guardCard (some card) cmd.payload terminal claimed = .ok card ∧
        body card = .ok change ∧ (change.assign card).approvalGeneration ≤ maxRevision ∧
        (card.moved env.clock change.assign).satisfiesChecks = true ∧
        jsonText pf.toRuntime (.obj change.record.delta) = .ok delta ∧
        db' = (db.update card.cardId card.revision
            fun card => card.moved env.clock change.assign).insertEvent
          (acceptedEvent env.clock cmd card.cardId (card.revision + 1) change.record.payload
            delta) ∧
        Shows out (acceptedEvent env.clock cmd card.cardId (card.revision + 1)
          change.record.payload delta) := by
  simp only [mutate] at h
  split at h
  · exact .inl ⟨_, h⟩
  next current hguard =>
    obtain ⟨hcard, -⟩ := guardCard_eq_ok hguard
    split at h
    · exact absurd h (by simp)
    · exact .inl ⟨_, h⟩
    next change hchange =>
      split at h
      · exact absurd h (by simp)
      · exact absurd h (by simp)
      · exact .inl ⟨_, h⟩
      next moved hmoved =>
        obtain ⟨found, hfound, hgeneration, hchecks, hupdate⟩ := casUpdate_eq_some hmoved
        have hsame : current = found := Option.some.inj ((find_target hcard).symm.trans hfound)
        subst hsame
        obtain ⟨delta, hdelta, hdb, hshows⟩ := accept_eq_ok h
        subst hupdate hdb
        rw [hcard] at hguard
        exact .inr ⟨current, change, delta, hcard, hguard, hchange, hgeneration, hchecks, hdelta,
          rfl, hshows⟩

/-- A command that moves a card is rejected, or moves it by what its checks allow. -/
lemma mutate_effect {shown : Value} {terminal claimed : Bool} {lost : Stop}
    {body : Card → Except Stop Change}
    (hbody : ∀ card change, body card = .ok change → Changes pf env db cmd card change)
    (h : mutate pf.toRuntime env.clock db cmd shown terminal claimed lost body = .ok (out, db')) :
    ∃ event, Effect pf env db cmd event db' ∧ Shows out event := by
  rcases mutate_eq_ok h with ⟨reason, hreject⟩ | ⟨card, change, delta, hcard, hguard, hchange,
    hgeneration, hchecks, hdelta, rfl, hshows⟩
  · exact reject_effect (fun c hc => mem_of_card hc) hreject
  · exact ⟨_, .moved hcard hguard (hbody card change hchange) hgeneration hchecks hdelta, hshows⟩

/-! ## The commands -/

lemma report_effect (hverb : cmd.verb = .reportProgress)
    (h : reportProgress pf env.clock db cmd = .ok (out, db')) :
    ∃ event, Effect pf env db cmd event db' ∧ Shows out event := by
  refine mutate_effect ?_ h
  intro card change hbody
  simp only [stop_bind_eq_ok, raising_eq_ok] at hbody
  obtain ⟨refs, hrefs, digest, hdigest, binding, hbinding, event, hevent, hchange⟩ := hbody
  simp only [pure, Except.pure, Except.ok.injEq] at hchange
  subst hchange
  exact .reported hverb hrefs hdigest hbinding hevent

lemma readDestination_eq_ok {v : Value} {place : Location} (h : readDestination v = .ok place) :
    destination v = some place := by
  unfold readDestination at h
  split at h
  · exact absurd h (by simp)
  · exact absurd h (by simp)
  · cases hd : destination v with
    | none => simp [hd] at h
    | some p => simpa [hd] using h

lemma place_effect (hverb : cmd.verb = .place)
    (h : placeCard pf env.clock db cmd = .ok (out, db')) :
    ∃ event, Effect pf env db cmd event db' ∧ Shows out event := by
  refine mutate_effect ?_ h
  intro card change hbody
  simp only [stop_bind_eq_ok] at hbody
  obtain ⟨-, -, -, -, place, hplace, -, -, hbody⟩ := hbody
  have hdest := readDestination_eq_ok hplace
  split at hbody
  · simp only [stop_bind_eq_ok] at hbody
    obtain ⟨-, -, payload, -, hchange⟩ := hbody
    simp only [pure, Except.pure, Except.ok.injEq] at hchange
    subst hchange
    exact .placed hverb hdest
  · simp only [stop_bind_eq_ok] at hbody
    obtain ⟨payload, -, hchange⟩ := hbody
    simp only [pure, Except.pure, Except.ok.injEq] at hchange
    subst hchange
    exact .placed hverb hdest

lemma edit_effect (hverb : cmd.verb = .edit)
    (h : editCard pf env.clock db cmd = .ok (out, db')) :
    ∃ event, Effect pf env db cmd event db' ∧ Shows out event := by
  refine mutate_effect ?_ h
  intro card change hbody
  simp only [stop_bind_eq_ok, raising_eq_ok] at hbody
  obtain ⟨fields, hfields, -, -, -, -, -, -, stored, hstored, payload, -, hchange⟩ := hbody
  simp only [pure, Except.pure, Except.ok.injEq] at hchange
  subst hchange
  rw [List.append_assoc (storedPairs stored)]
  refine .edited hverb hfields hstored ?_
  have hsublist : ∀ (condition : Bool) (p : Text × Value),
      (if condition = true then [p] else []).Sublist [p] := by
    intro condition p
    split
    · exact List.Sublist.refl _
    · exact List.nil_sublist _
  exact (hsublist _ _).append (hsublist _ _)

lemma approve_effect (hverb : cmd.verb = .approve)
    (h : approveCard pf env db cmd = .ok (out, db')) :
    ∃ event, Effect pf env db cmd event db' ∧ Shows out event := by
  refine mutate_effect ?_ h
  intro card change hbody
  simp only [stop_bind_eq_ok, raising_eq_ok] at hbody
  obtain ⟨-, -, frozen, hfrozen, payload, hpayload, digest, hdigest, hchange⟩ := hbody
  simp only [pure, Except.pure, Except.ok.injEq] at hchange
  subst hchange
  exact .approved hverb hfrozen hpayload hdigest

lemma invalidate_effect {target : ManualState} {required : Bool} {reason : Text}
    (hverb : cmd.verb = .withdraw ∨ cmd.verb = .return_)
    (htarget : target = .inbox ∨ target = .returned)
    (h : invalidateCard pf env.clock db cmd target required reason = .ok (out, db')) :
    ∃ event, Effect pf env db cmd event db' ∧ Shows out event := by
  refine mutate_effect ?_ h
  intro card change hbody
  simp only [stop_bind_eq_ok] at hbody
  obtain ⟨-, -, payload, -, hchange⟩ := hbody
  simp only [pure, Except.pure, Except.ok.injEq] at hchange
  subst hchange
  exact .invalidated hverb htarget

lemma archive_effect (hverb : cmd.verb = .archive)
    (h : archiveCard pf env.clock db cmd = .ok (out, db')) :
    ∃ event, Effect pf env db cmd event db' ∧ Shows out event := by
  refine mutate_effect ?_ h
  intro card change hbody
  simp only [stop_bind_eq_ok] at hbody
  obtain ⟨payload, -, hchange⟩ := hbody
  simp only [pure, Except.pure, Except.ok.injEq] at hchange
  subst hchange
  exact .archived hverb

lemma pause_effect (hverb : cmd.verb = .pause)
    (h : pauseCard pf env.clock db cmd = .ok (out, db')) :
    ∃ event, Effect pf env db cmd event db' ∧ Shows out event := by
  refine mutate_effect ?_ h
  intro card change hbody
  simp only [stop_bind_eq_ok] at hbody
  obtain ⟨payload, -, hchange⟩ := hbody
  simp only [pure, Except.pure, Except.ok.injEq] at hchange
  subst hchange
  exact .paused hverb

/-- Only an approved card passes `_validate_done`. -/
lemma approval_of_validateDone {card : Card} {payload binding : List (Text × Value)}
    (h : validateDone pf env db card payload = .ok binding) : card.approval.isSome = true := by
  unfold validateDone at h
  split at h
  next found _ =>
    simp only [stop_bind_eq_ok, refuseUnless_eq_ok, Bool.and_eq_true] at h
    obtain ⟨-, -, -, -, -, happroved, -⟩ := h
    exact happroved.2
  · exact absurd h (by simp)

lemma finish_effect (hverb : cmd.verb = .done)
    (h : finishCard pf env db cmd = .ok (out, db')) :
    ∃ event, Effect pf env db cmd event db' ∧ Shows out event := by
  refine mutate_effect ?_ h
  intro card change hbody
  simp only [stop_bind_eq_ok] at hbody
  obtain ⟨binding, hbinding, payload, -, hchange⟩ := hbody
  simp only [pure, Except.pure, Except.ok.injEq] at hchange
  subst hchange
  exact .finished hverb (approval_of_validateDone hbinding)

lemma create_effect (hverb : cmd.verb = .create)
    (h : createCard pf env.clock db cmd = .ok (out, db')) :
    ∃ event, Effect pf env db cmd event db' ∧ Shows out event := by
  unfold createCard at h
  split at h
  · exact absurd h (by simp)
  · exact reject_effect (fun c hc => mem_of_card hc) h
  next card stored hvalid =>
    simp only [bind_eq_ok] at h
    obtain ⟨-, -, payload, -, h⟩ := h
    obtain ⟨delta, hdelta, hdb, hshows⟩ := accept_eq_ok h
    subst hdb
    exact ⟨_, .created hverb hvalid hdelta, hshows⟩

/-! ### Quota -/

lemma quotaEvent_effect {before : Db} {result : Except Text (List (Text × Value))}
    (h : quotaEvent pf.toRuntime env.clock before cmd result = .ok (out, db'))
    (hverb : cmd.verb = .quotaCliAttempt ∨ cmd.verb = .quotaSnapshot ∨ cmd.verb = .quotaInvalidate)
    (hcards : before.cards = db.cards) (hevents : before.events = db.events)
    (hnights : before.nights = db.nights) (htasks : before.tasks = db.tasks) :
    ∃ event, Effect pf env db cmd event db' ∧ Shows out event := by
  rcases result with reason | _ | ⟨first, rest⟩
  all_goals
    simp only [quotaEvent, bind_eq_ok] at h
    obtain ⟨recorded, -, delta, -, h⟩ := h
    simp only [pure, Except.pure, Except.ok.injEq, Prod.mk.injEq] at h
    obtain ⟨rfl, rfl⟩ := h
    exact ⟨_, .quota hverb rfl rfl rfl rfl rfl hcards (by rw [Db.insertEvent, hevents]) hnights htasks,
      ⟨rfl, rfl, rfl, rfl, rfl⟩⟩

lemma attempt_effect {attempt : QuotaObservation} (hquota : cmd.verb = .quotaCliAttempt)
    (h : attemptCommand pf.toRuntime env.clock db cmd attempt = .ok (out, db')) :
    ∃ event, Effect pf env db cmd event db' ∧ Shows out event := by
  have hverb : cmd.verb = .quotaCliAttempt ∨ cmd.verb = .quotaSnapshot ∨
      cmd.verb = .quotaInvalidate := .inl hquota
  unfold attemptCommand at h
  split at h
  · exact absurd h (by simp)
  · split at h
    · exact quotaEvent_effect h hverb rfl rfl rfl rfl
    · dsimp only at h
      split at h
      · exact absurd h (by simp)
      · exact quotaEvent_effect h hverb rfl rfl rfl rfl

lemma snapshot_effect (hquota : cmd.verb = .quotaSnapshot)
    (h : snapshotCommand pf.toRuntime env.clock db cmd = .ok (out, db')) :
    ∃ event, Effect pf env db cmd event db' ∧ Shows out event := by
  have hverb : cmd.verb = .quotaCliAttempt ∨ cmd.verb = .quotaSnapshot ∨
      cmd.verb = .quotaInvalidate := .inr (.inl hquota)
  unfold snapshotCommand at h
  split at h
  · exact absurd h (by simp)
  · exact quotaEvent_effect h hverb rfl rfl rfl rfl
  · dsimp only at h
    split at h
    · exact absurd h (by simp)
    · split at h
      · exact quotaEvent_effect h hverb rfl rfl rfl rfl
      · exact quotaEvent_effect h hverb rfl rfl rfl rfl

lemma invalidateQuota_effect (hquota : cmd.verb = .quotaInvalidate)
    (h : invalidateCommand pf.toRuntime env.clock db cmd = .ok (out, db')) :
    ∃ event, Effect pf env db cmd event db' ∧ Shows out event := by
  have hverb : cmd.verb = .quotaCliAttempt ∨ cmd.verb = .quotaSnapshot ∨
      cmd.verb = .quotaInvalidate := .inr (.inr hquota)
  unfold invalidateCommand at h
  dsimp only at h
  split at h
  · exact quotaEvent_effect h hverb rfl rfl rfl rfl
  · split at h
    · exact quotaEvent_effect h hverb rfl rfl rfl rfl
    · exact quotaEvent_effect h hverb rfl rfl rfl rfl

/-- A command that is not refused has an effect, and its answer tells which. -/
theorem dispatch_effect (h : dispatch pf env db cmd = .ok (out, db')) :
    ∃ event, Effect pf env db cmd event db' ∧ Shows out event := by
  unfold dispatch at h
  split at h
  next hverb => exact create_effect hverb h
  next hverb => exact edit_effect hverb h
  next hverb => exact approve_effect hverb h
  next hverb => exact invalidate_effect (.inl hverb) (.inl rfl) h
  next hverb => exact invalidate_effect (.inr hverb) (.inr rfl) h
  next hverb => exact pause_effect hverb h
  next hverb => exact finish_effect hverb h
  next hverb => exact archive_effect hverb h
  next hverb =>
    split at h
    · exact attempt_effect hverb h
    · exact absurd h (by simp)
  next hverb => exact snapshot_effect hverb h
  next hverb => exact invalidateQuota_effect hverb h
  next hverb => exact report_effect hverb h
  next hverb => exact place_effect hverb h

end

end Kanban

end AgentOrch
