import AgentOrch.Framework.Reachability
import AgentOrch.Properties.Effects
import AgentOrch.Properties.BoardPages

/-!
# The journal and the cards agree

The accepted events of a card number its revisions without a gap, and the card stands at the last of
them.  This is an invariant of the steps of `Effects`: a card that moves takes its event along, and no
other event names a card as accepted.

An operation that is on record is never executed again.  Sent once more as it was, it is answered from
the journal; sent with anything else under its name, it is an idempotency conflict.
-/

namespace AgentOrch

open Py Json

namespace Kanban

/-! ## Steps -/

/-- A request of this content passes the shape checks. -/
def IsCommand (pf : Platform) (cmd : Command) : Prop := ∃ request, readRequest pf request = .ok cmd

/-- One call of the handler: nothing, or an operation that was not on record. -/
inductive Step (pf : Platform) (db : Db) : Db → Prop
  | idle : Step pf db db
  | recorded {env : Environment} {cmd : Command} {event : Event} {db' : Db}
      (hcmd : IsCommand pf cmd)
      (hnew : cmd.operationId ∉ db.events.map Event.operationId)
      (heffect : Effect pf env db cmd event db') : Step pf db db'

section
variable {pf : Platform} {env : Environment} {db db' : Db} {cmd : Command} {out : Outcome}

/-- The handler answers from the journal, or it executes an operation that was not on record. -/
lemma execute_cases (h : execute pf env db cmd = .ok (out, db')) :
    (∃ event ∈ db.events, event.operationId = cmd.operationId ∧ out = replay event cmd.digest ∧
        db' = db) ∨
      cmd.operationId ∉ db.events.map Event.operationId ∧
        ∃ event, Effect pf env db cmd event db' ∧ Shows out event := by
  unfold execute at h
  split at h
  next existing hfound =>
    left
    obtain ⟨rfl, rfl⟩ := Prod.mk.inj (Except.ok.inj h)
    exact ⟨existing, List.mem_of_find?_eq_some hfound, by simpa using List.find?_some hfound,
      rfl, rfl⟩
  next hnone =>
    right
    refine ⟨?_, dispatch_effect h⟩
    intro hmem
    obtain ⟨event, hevent, hid⟩ := List.mem_map.mp hmem
    have hne := List.find?_eq_none.mp hnone event hevent
    simp [hid] at hne

lemma serve_step (pf : Platform) (db : Db) (call : Call) : Step pf db (serve pf db call) := by
  unfold serve
  split
  next out after h =>
    obtain ⟨cmd, hcmd, hexecute⟩ := bind_eq_ok.mp h
    rcases execute_cases hexecute with ⟨event, -, -, -, rfl⟩ | ⟨hnew, event, heffect, -⟩
    · exact .idle
    · exact .recorded ⟨_, hcmd⟩ hnew heffect
  · exact .idle

lemma run_concat (db : Db) (calls : List Call) (call : Call) :
    run pf db (calls ++ [call]) = serve pf (run pf db calls) call := by
  simp [run]

lemma run_append (db : Db) (calls calls' : List Call) :
    run pf db (calls ++ calls') = run pf (run pf db calls) calls' := by
  simp [run]

lemma run_reachable (pf : Platform) (tasks : List TaskRow) (calls : List Call) :
    Reachable (· = Db.fresh tasks) (Step pf) (run pf (Db.fresh tasks) calls) := by
  induction calls using List.reverseRecOn with
  | nil => exact .init rfl
  | append_singleton calls call ih =>
      rw [run_concat]
      exact .step ih (serve_step pf _ call)

/-! ## Where events and cards go -/

lemma Effect.events_eq {event : Event} (h : Effect pf env db cmd event db') :
    db'.events = db.events ++ [event] := by
  cases h with
  | rejected => rfl
  | quota _ _ _ _ _ _ _ hevents => exact hevents
  | created => rfl
  | moved => rfl

lemma Effect.operationId_eq {event : Event} (h : Effect pf env db cmd event db') :
    event.operationId = cmd.operationId := by
  cases h with
  | rejected hid => exact hid
  | quota _ hid => exact hid
  | created => rfl
  | moved => rfl

lemma Effect.payloadHash_eq {event : Event} (h : Effect pf env db cmd event db') :
    event.payloadHash = .text cmd.digest := by
  cases h with
  | rejected _ hhash => exact hhash
  | quota _ _ hhash => exact hhash
  | created => rfl
  | moved => rfl

/-- Only accepted events of a card move a card. -/
lemma Effect.cards_eq_of_rejected {event : Event} (h : Effect pf env db cmd event db')
    (hresult : event.result = .rejected) : db'.cards = db.cards := by
  cases h with
  | rejected => rfl
  | quota _ _ _ _ _ _ hcards => exact hcards
  | created => exact absurd hresult (by simp [acceptedEvent])
  | moved => exact absurd hresult (by simp [acceptedEvent])

/-- No step loses an event. -/
lemma Step.events_extend (h : Step pf db db') : db.events <+: db'.events := by
  cases h with
  | idle => exact List.prefix_refl _
  | recorded _ _ heffect =>
      rw [heffect.events_eq]
      exact List.prefix_append _ _

lemma run_events_extend (pf : Platform) (db : Db) (calls : List Call) : db.events <+: (run pf db calls).events := by
  induction calls using List.reverseRecOn with
  | nil => exact List.prefix_refl _
  | append_singleton calls call ih =>
      rw [run_concat]
      exact ih.trans (serve_step pf _ call).events_extend

/-! ## What a change keeps -/

/-- What no field of an edit touches stays. -/
lemma assignAll_frame {α : Type} (g : Card → α)
    (h : ∀ card f value, g (Card.assign card f value) = g card) (card : Card)
    (stored : List (Field × Option Text)) : g (card.assignAll stored) = g card := by
  induction stored generalizing card with
  | nil => rfl
  | cons p rest ih =>
      show g ((card.assign p.1 p.2).assignAll rest) = g card
      rw [ih, h]

@[simp] lemma cardId_assignAll (card : Card) (stored : List (Field × Option Text)) :
    (card.assignAll stored).cardId = card.cardId :=
  assignAll_frame Card.cardId (fun card f value => by cases f <;> rfl) card stored

@[simp] lemma revision_assignAll (card : Card) (stored : List (Field × Option Text)) :
    (card.assignAll stored).revision = card.revision :=
  assignAll_frame Card.revision (fun card f value => by cases f <;> rfl) card stored

@[simp] lemma cardId_scopeEdited (card : Card) : card.scopeEdited.cardId = card.cardId := by
  simp only [Card.scopeEdited]
  split <;> rfl

lemma Changes.cardId_eq {card : Card} {change : Change} (h : Changes pf env db cmd card change)
    (c : Card) : (change.assign c).cardId = c.cardId := by
  cases h with
  | edited =>
      simp only [cardId_assignAll]
      split
      · exact cardId_scopeEdited c
      · rfl
  | reported => rfl
  | placed => rfl
  | approved => rfl
  | invalidated => rfl
  | archived => rfl
  | paused => rfl
  | finished => rfl

/-- With distinct names, an update replaces its target and nothing else. -/
lemma mem_update {card c : Card} {f : Card → Card} (hnodup : (db.cards.map Card.cardId).Nodup)
    (hcard : card ∈ db.cards) :
    c ∈ (db.update card.cardId card.revision f).cards ↔
      (c ∈ db.cards ∧ c.cardId ≠ card.cardId) ∨ c = f card := by
  have hsame : ∀ d ∈ db.cards, d.cardId = card.cardId → d = card := fun d hd heq =>
    List.inj_on_of_nodup_map hnodup hd hcard heq
  simp only [Db.update, List.mem_map]
  constructor
  · rintro ⟨d, hd, rfl⟩
    by_cases htarget : d.cardId = card.cardId
    · right
      rw [hsame d hd htarget]
      simp [isTarget]
    · left
      have hfalse : isTarget card.cardId card.revision d = false := by simp [isTarget, htarget]
      rw [if_neg (by simp [hfalse])]
      exact ⟨hd, htarget⟩
  · rintro (⟨hc, hne⟩ | rfl)
    · refine ⟨c, hc, ?_⟩
      have hfalse : isTarget card.cardId card.revision c = false := by simp [isTarget, hne]
      rw [if_neg (by simp [hfalse])]
    · exact ⟨card, hcard, by simp [isTarget]⟩

lemma map_cardId_update {cardId : Text} {revision : ℤ} {f : Card → Card}
    (hf : ∀ c, (f c).cardId = c.cardId) :
    (db.update cardId revision f).cards.map Card.cardId = db.cards.map Card.cardId := by
  simp only [Db.update, List.map_map]
  refine List.map_congr_left fun c _ => ?_
  simp only [Function.comp_apply]
  split
  · exact hf c
  · rfl

/-- What is created is new, and stands at revision 0. -/
lemma validateCreate_eq_ok {clock : Clock} {card : Card} {stored : List (Field × Option Text)}
    (h : validateCreate pf clock db cmd = .ok (card, stored)) :
    card = (Card.blank clock db.nextRowid card.cardId).assignAll stored ∧
      card.cardId ∉ db.cards.map Card.cardId := by
  unfold validateCreate at h
  dsimp only at h
  split at h
  next id _ =>
    simp only [stop_bind_eq_ok, refuseUnless_eq_ok, raising_eq_ok] at h
    obtain ⟨-, hnonempty, -, habsent, -, -, fields, -, -, -, -, -, stored', -, h⟩ := h
    simp only [pure, Except.pure, Except.ok.injEq, Prod.mk.injEq] at h
    obtain ⟨rfl, rfl⟩ := h
    have hid : ((Card.blank clock db.nextRowid id).assignAll stored').cardId = id := by
      simp [Card.blank]
    refine ⟨by rw [hid], ?_⟩
    rw [hid]
    simp only [Bool.not_eq_true'] at hnonempty
    simp only [Db.card, hnonempty, Bool.false_eq_true, if_false, Option.isNone_iff_eq_none,
      List.find?_eq_none] at habsent
    intro hmem
    obtain ⟨c, hc, heq⟩ := List.mem_map.mp hmem
    have hne := habsent c hc
    simp [heq] at hne
  · exact absurd h (by simp)

/-- What an effect means for a card of the tables it leaves. -/
inductive Fate (pf : Platform) (env : Environment) (db : Db) (cmd : Command) (event : Event)
    (c : Card) : Prop
  | untouched (hold : c ∈ db.cards)
      (hevent : event.cardId = some c.cardId → event.result = .rejected)
  | born {stored : List (Field × Option Text)} {payload delta : Text}
      (hverb : cmd.verb = .create)
      (hcard : c = (Card.blank env.clock db.nextRowid c.cardId).assignAll stored)
      (hnew : c.cardId ∉ db.cards.map Card.cardId)
      (hdelta : jsonText pf.toRuntime (.obj ((("manual_state" : Text), .str "inbox") ::
        storedPairs stored ++ [(("queue_location" : Text), .str "backlog")])) = .ok delta)
      (hevent : event = acceptedEvent env.clock cmd c.cardId 0 payload delta)
  | moved {card : Card} {change : Change} {delta : Text} {terminal claimed : Bool}
      (hold : card ∈ db.cards)
      (hnamed : db.card (getValue "card_id" cmd.payload) = some card)
      (hguard : guardCard (some card) cmd.payload terminal claimed = .ok card)
      (hchange : Changes pf env db cmd card change)
      (hgeneration : (change.assign card).approvalGeneration ≤ maxRevision)
      (hchecks : (card.moved env.clock change.assign).satisfiesChecks = true)
      (hdelta : jsonText pf.toRuntime (.obj change.record.delta) = .ok delta)
      (hcard : c = card.moved env.clock change.assign)
      (hevent : event = acceptedEvent env.clock cmd card.cardId (card.revision + 1)
        change.record.payload delta)

lemma Effect.fate {event : Event} {c : Card} (h : Effect pf env db cmd event db')
    (hnodup : (db.cards.map Card.cardId).Nodup) (hc : c ∈ db'.cards) :
    Fate pf env db cmd event c := by
  cases h with
  | rejected _ _ _ _ hresult => exact .untouched hc fun _ => hresult
  | quota _ _ _ _ _ hcard hcards =>
      rw [hcards] at hc
      refine .untouched hc fun hid => ?_
      rw [hcard] at hid
      cases hid
  | @created card stored payload delta hverb hvalid hdelta =>
      obtain ⟨hcard, hnew⟩ := validateCreate_eq_ok hvalid
      rcases List.mem_append.mp hc with hold | hc
      · refine .untouched hold fun hid => ?_
        exact absurd (Option.some.inj hid ▸ List.mem_map.mpr ⟨c, hold, rfl⟩) hnew
      · obtain rfl := List.mem_singleton.mp hc
        exact .born hverb hcard hnew hdelta rfl
  | @moved card change _ _ _ hnamed hguard hchange hgeneration hchecks hdelta =>
      rcases (mem_update hnodup (mem_of_card hnamed)).mp hc with ⟨hold, hne⟩ | hcard
      · refine .untouched hold fun hid => ?_
        exact absurd (Option.some.inj hid).symm hne
      · exact .moved (mem_of_card hnamed) hnamed hguard hchange hgeneration hchecks hdelta hcard rfl

/-! ## Revisions without a gap -/

/-- The accepted events of a card, in the order they were recorded. -/
def Db.history (db : Db) (cardId : Text) : List Event :=
  (db.eventsOf cardId).filter fun e => e.result = .accepted

/-- The revisions below `n`, as a column holds them. -/
def revisionsBelow (n : ℕ) : List Cell := (List.range n).map fun (k : ℕ) => .int k

/-- The accepted events of a card lead from revision 0 to where the card stands. -/
structure Journaled (db : Db) (card : Card) : Prop where
  results : (db.history card.cardId).map Event.resultRevision =
    revisionsBelow (db.history card.cardId).length
  expected : (db.history card.cardId).tail.map Event.expectedRevision =
    revisionsBelow ((db.history card.cardId).length - 1)
  revision : ((db.history card.cardId).length : ℤ) = card.revision + 1
  nonneg : 0 ≤ card.revision

/-- What every step keeps. -/
structure Db.Agrees (db : Db) : Prop where
  cardIds : (db.cards.map Card.cardId).Nodup
  operations : (db.events.map Event.operationId).Nodup
  known : ∀ e ∈ db.events, ∀ id, e.cardId = some id → ∃ card ∈ db.cards, card.cardId = id
  journaled : ∀ card ∈ db.cards, Journaled db card

lemma revisionsBelow_succ (n : ℕ) : revisionsBelow (n + 1) = revisionsBelow n ++ [.int n] := by
  simp [revisionsBelow, List.range_succ]

lemma history_congr (h : db'.events = db.events) (id : Text) : db'.history id = db.history id := by
  rw [Db.history, Db.history, Db.eventsOf, Db.eventsOf, h]

lemma history_concat {event : Event} (h : db'.events = db.events ++ [event]) (id : Text) :
    db'.history id = db.history id ++
      if event.cardId = some id ∧ event.result = .accepted then [event] else [] := by
  simp only [Db.history, Db.eventsOf, h, List.filter_append]
  by_cases hid : event.cardId = some id <;> by_cases hresult : event.result = .accepted <;>
    simp [hid, hresult]

lemma history_of_other {event : Event} (h : db'.events = db.events ++ [event]) {id : Text}
    (hother : event.cardId ≠ some id ∨ event.result = .rejected) :
    db'.history id = db.history id := by
  rw [history_concat h, if_neg, List.append_nil]
  rintro ⟨hid, hresult⟩
  rcases hother with hne | hrejected
  · exact hne hid
  · rw [hrejected] at hresult
    exact absurd hresult (by decide)

lemma Journaled.congr {card : Card} (h : Journaled db card)
    (hhistory : db'.history card.cardId = db.history card.cardId) : Journaled db' card := by
  obtain ⟨hresults, hexpected, hrevision, hnonneg⟩ := h
  constructor
  · rw [hhistory, hresults]
  · rw [hhistory, hexpected]
  · rw [hhistory, hrevision]
  · exact hnonneg

/-- An accepted event of the next revision takes its card along. -/
lemma Journaled.next {card moved : Card} {event : Event} (h : Journaled db card)
    (hid : moved.cardId = card.cardId)
    (hhistory : db'.history card.cardId = db.history card.cardId ++ [event])
    (hexpected : event.expectedRevision = .int card.revision)
    (hresult : event.resultRevision = .int (card.revision + 1))
    (hrevision : moved.revision = card.revision + 1) : Journaled db' moved := by
  have hold := h.revision
  have hnonneg := h.nonneg
  obtain ⟨n, hn⟩ : ∃ n, (db.history card.cardId).length = n + 1 :=
    ⟨(db.history card.cardId).length - 1, by omega⟩
  have hne : db.history card.cardId ≠ [] := by
    intro hnil
    simp [hnil] at hn
  have hlast : card.revision = (n : ℤ) := by omega
  rw [← hid] at hhistory
  constructor
  · rw [hhistory, hid, List.map_append, h.results, List.length_append, hn, List.length_singleton,
      revisionsBelow_succ (n + 1), List.map_singleton, hresult, hlast]
    rfl
  · rw [hhistory, hid, List.tail_append_of_ne_nil hne, List.map_append, h.expected,
      List.length_append, hn, List.length_singleton, Nat.add_sub_cancel, Nat.add_sub_cancel,
      revisionsBelow_succ n, List.map_singleton, hexpected, hlast]
  · rw [hhistory, hid, List.length_append, List.length_singleton, hrevision]
    push_cast
    omega
  · omega

/-! ## Each effect keeps the agreement -/

lemma submittedRevision_of_guard {card : Card} {terminal claimed : Bool}
    (h : guardCard (some card) cmd.payload terminal claimed = .ok card) :
    submittedRevision cmd.payload = .int card.revision := by
  obtain ⟨-, hexpected, hvalid, -⟩ := guardCard_eq_ok h
  simp [submittedRevision, hexpected, hvalid]

lemma Effect.cardIds_nodup {event : Event} (h : Effect pf env db cmd event db')
    (hnodup : (db.cards.map Card.cardId).Nodup) : (db'.cards.map Card.cardId).Nodup := by
  cases h with
  | rejected => exact hnodup
  | quota _ _ _ _ _ _ hcards => rw [hcards]; exact hnodup
  | @created card _ _ _ _ hvalid =>
      have hnew := (validateCreate_eq_ok hvalid).2
      show ((db.cards ++ [card]).map Card.cardId).Nodup
      rw [List.map_append, List.map_singleton]
      refine List.nodup_append.mpr ⟨hnodup, List.nodup_singleton _, ?_⟩
      rintro a ha b hb rfl
      rw [List.mem_singleton] at hb
      exact hnew (hb ▸ ha)
  | @moved card change _ _ _ _ _ hchange =>
      show ((db.update card.cardId card.revision _).cards.map Card.cardId).Nodup
      rw [map_cardId_update (f := fun card => card.moved env.clock change.assign)
        fun c => hchange.cardId_eq c]
      exact hnodup

lemma Effect.known {event : Event} (h : Effect pf env db cmd event db')
    (hknown : ∀ e ∈ db.events, ∀ id, e.cardId = some id → ∃ card ∈ db.cards, card.cardId = id) :
    ∀ e ∈ db'.events, ∀ id, e.cardId = some id → ∃ card ∈ db'.cards, card.cardId = id := by
  have hcards : ∀ id ∈ db.cards.map Card.cardId, id ∈ db'.cards.map Card.cardId := by
    intro id hid
    cases h with
    | rejected => exact hid
    | quota _ _ _ _ _ _ hcards => rw [hcards]; exact hid
    | @created card =>
        show id ∈ (db.cards ++ [card]).map Card.cardId
        rw [List.map_append]
        exact List.mem_append_left _ hid
    | @moved card change _ _ _ _ _ hchange =>
        show id ∈ (db.update card.cardId card.revision _).cards.map Card.cardId
        rw [map_cardId_update (f := fun card => card.moved env.clock change.assign)
          fun c => hchange.cardId_eq c]
        exact hid
  intro e he id hid
  rw [h.events_eq] at he
  suffices hmem : id ∈ db'.cards.map Card.cardId from List.mem_map.mp hmem
  rcases List.mem_append.mp he with hold | hnew
  · exact hcards id (List.mem_map.mpr (hknown e hold id hid))
  · rw [List.mem_singleton] at hnew
    subst hnew
    cases h with
    | rejected _ _ _ _ _ hcard => exact hcards id (List.mem_map.mpr (hcard id hid))
    | quota _ _ _ _ _ hcard => rw [hcard] at hid; cases hid
    | @created card =>
        obtain rfl : card.cardId = id := Option.some.inj hid
        show card.cardId ∈ (db.cards ++ [card]).map Card.cardId
        simp
    | @moved card _ _ _ _ hcard =>
        obtain rfl : card.cardId = id := Option.some.inj hid
        exact hcards _ (List.mem_map.mpr ⟨card, mem_of_card hcard, rfl⟩)

/-- No event names a card before it is there. -/
lemma history_eq_nil_of_new (hdb : db.Agrees) {id : Text} (hnew : id ∉ db.cards.map Card.cardId) :
    db.history id = [] := by
  rw [Db.history, Db.eventsOf, List.filter_filter, List.filter_eq_nil_iff]
  intro e he hkeep
  simp only [Bool.and_eq_true, decide_eq_true_eq] at hkeep
  obtain ⟨d, hd, heq⟩ := hdb.known e he id hkeep.2
  exact hnew (List.mem_map.mpr ⟨d, hd, heq⟩)

lemma Effect.journaled {event : Event} (h : Effect pf env db cmd event db') (hdb : db.Agrees) :
    ∀ card ∈ db'.cards, Journaled db' card := by
  have hevents := h.events_eq
  intro c hc
  cases h.fate hdb.cardIds hc with
  | untouched hold hevent =>
      refine (hdb.journaled c hold).congr (history_of_other hevents ?_)
      by_cases hid : event.cardId = some c.cardId
      · exact .inr (hevent hid)
      · exact .inl hid
  | born _ hcard hnew _ hevent =>
      have hempty := history_eq_nil_of_new hdb hnew
      have hhistory := history_concat hevents c.cardId
      rw [hempty, if_pos (by rw [hevent]; exact ⟨rfl, rfl⟩), List.nil_append] at hhistory
      have hrevision : c.revision = 0 := by
        rw [hcard, revision_assignAll]
        rfl
      constructor
      · rw [hhistory, hevent]
        rfl
      · rw [hhistory]
        rfl
      · rw [hhistory, hrevision]
        rfl
      · omega
  | @moved card _ _ _ _ hold _ hguard hchange _ _ _ hcard hevent =>
      have hhistory := history_concat hevents card.cardId
      rw [if_pos (by rw [hevent]; exact ⟨rfl, rfl⟩)] at hhistory
      subst hcard hevent
      exact (hdb.journaled card hold).next (hchange.cardId_eq card) hhistory
        (submittedRevision_of_guard hguard) rfl rfl

lemma Step.agrees (h : Step pf db db') (hdb : db.Agrees) : db'.Agrees := by
  cases h with
  | idle => exact hdb
  | recorded _ hnew heffect =>
      constructor
      · exact heffect.cardIds_nodup hdb.cardIds
      · rw [heffect.events_eq, List.map_append, List.map_singleton, heffect.operationId_eq]
        refine List.nodup_append.mpr ⟨hdb.operations, List.nodup_singleton _, ?_⟩
        rintro a ha b hb rfl
        rw [List.mem_singleton] at hb
        exact hnew (hb ▸ ha)
      · exact heffect.known hdb.known
      · exact heffect.journaled hdb

lemma agrees_fresh (tasks : List TaskRow) : (Db.fresh tasks).Agrees := by
  constructor
  · exact List.nodup_nil
  · exact List.nodup_nil
  · intro e he
    cases he
  · intro card hcard
    cases hcard

/-- The induction over the requests of a run, where the journal and the cards agree all along. -/
lemma run_invariant {Inv : Db → Prop} (tasks : List TaskRow) (hinit : Inv (Db.fresh tasks))
    (hstep : ∀ db db', db.Agrees → Inv db → Step pf db db' → Inv db') (calls : List Call) :
    Inv (run pf (Db.fresh tasks) calls) := by
  have hknown : ∀ db, Reachable (· = Db.fresh tasks) (Step pf) db → db.Agrees := fun db h =>
    h.invariant (fun _ h => h ▸ agrees_fresh tasks) fun _ _ hdb hstep => hstep.agrees hdb
  exact (run_reachable pf tasks calls).invariant_of hknown (fun _ h => h ▸ hinit) hstep

/-- The journal and the cards agree after every sequence of requests. -/
lemma agrees_run (pf : Platform) (tasks : List TaskRow) (calls : List Call) :
    (run pf (Db.fresh tasks) calls).Agrees :=
  run_invariant tasks (agrees_fresh tasks) (fun _ _ _ hdb hstep => hstep.agrees hdb) calls

/-! ## Sending an operation again -/

/-- Both commands are the same, and so are their payloads up to the order of their keys. -/
def Command.SameAs (a b : Command) : Prop :=
  a.verb = b.verb ∧ (Value.obj a.payload).sortKeys = (Value.obj b.payload).sortKeys

/-- What `payload_hash` hashes. -/
def Command.hashed (cmd : Command) : Value :=
  .obj [("command", .str cmd.verb.name), ("payload", .obj cmd.payload)]

/-- SHA-256 tells the encodings of two commands apart, and their floats are written so that they read
back. -/
structure ToldApart (pf : Platform) (a b : Command) : Prop where
  digests : ∀ x y, canonicalJson pf.toRuntime a.hashed = .ok x →
    canonicalJson pf.toRuntime b.hashed = .ok y → pf.sha256 x = pf.sha256 y → x = y
  floats : ∀ cmd ∈ [a, b], ∀ x ∈ cmd.hashed.floats, ReadsBack pf.floatRepr x

lemma textThat_eq_some {p : Text → Bool} {v : Value} {t : Text} (h : textThat p v = some t) :
    v = .str t ∧ p t = true := by
  unfold textThat at h
  split at h
  next s =>
    split at h
    next hp =>
      obtain rfl := Option.some.inj h
      exact ⟨rfl, hp⟩
    · cases h
  · cases h

lemma elim_eq_ok {α : Type} {read : Option α} {e : Exc} {a : α}
    (h : read.elim (Except.error e) Except.ok = .ok a) : read = some a := by
  cases read with
  | none => cases h
  | some b => exact congrArg some (Except.ok.inj h)

/-- An item of a value with distinct keys has distinct keys. -/
lemma wellKeyed_getValue {items : List (Text × Value)} {key : Text} {v : Value}
    (hkeyed : (Value.obj items).wellKeyed = true) (h : getValue key items = v) :
    v.wellKeyed = true := by
  simp only [Value.wellKeyed, Bool.and_eq_true, decide_eq_true_eq] at hkeyed
  unfold getValue at h
  cases hget : dictGet key items with
  | none =>
      rw [hget] at h
      subst h
      rfl
  | some w =>
      rw [hget] at h
      subst h
      exact wellKeyedPairs_iff.mp hkeyed.2 (key, w) (mem_of_dictGet hget)

/-- What a command has of the request it is read from. -/
structure Command.ReadFrom (pf : Platform) (cmd : Command) (request : Request) : Prop where
  verb : Verb.ofValue (getValue "command" request.items) = some cmd.verb
  operationId : getValue "operation_id" request.items = .str cmd.operationId
  isUuid : Trajectory.isUuid cmd.operationId = true
  payload : getValue "payload" request.items = .obj cmd.payload
  attempt : cmd.verb = .quotaCliAttempt → (validateAttempt cmd.payload).isSome = true
  actor : getValue "actor" cmd.payload = .str cmd.actor
  actor_nonblank : isBlank cmd.actor = false
  digest : payloadHash pf cmd.verb.name cmd.payload = .ok cmd.digest

lemma readFrom_of_readRequest {request : Request} (h : readRequest pf request = .ok cmd) :
    cmd.ReadFrom pf request := by
  unfold readRequest at h
  dsimp only at h
  split at h
  · cases h
  next verb hverb =>
    simp only [bind_eq_ok, require_eq_ok] at h
    obtain ⟨operationId, hid, -, huuid, h⟩ := h
    split at h
    next payload hpayload =>
      simp only [bind_eq_ok, require_eq_ok] at h
      obtain ⟨-, hquota, actor, hactor, digest, hdigest, h⟩ := h
      simp only [pure, Except.pure, Except.ok.injEq] at h
      subst h
      obtain ⟨hvalue, hnonblank⟩ := textThat_eq_some (elim_eq_ok hactor)
      refine ⟨hverb, (textThat_eq_some (elim_eq_ok hid)).1, huuid, hpayload, ?_, hvalue,
        by simpa using hnonblank, hdigest⟩
      rintro rfl
      simp only [ne_eq, not_true_eq_false, decide_false, Bool.false_or, Bool.and_eq_true] at hquota
      exact hquota.2
    · cases h

/-- What a command that passes the shape checks is known to have. -/
structure Command.WellShaped (pf : Platform) (cmd : Command) : Prop where
  digest : canonicalHash pf cmd.hashed = .ok cmd.digest
  keyed : (Value.obj cmd.payload).wellKeyed = true
  isUuid : Trajectory.isUuid cmd.operationId = true
  actor : getValue "actor" cmd.payload = .str cmd.actor
  actor_nonblank : isBlank cmd.actor = false

lemma IsCommand.wellShaped (h : IsCommand pf cmd) : cmd.WellShaped pf := by
  obtain ⟨request, h⟩ := h
  have hread := readFrom_of_readRequest h
  exact ⟨hread.digest, wellKeyed_getValue request.keyed hread.payload, hread.isUuid, hread.actor,
    hread.actor_nonblank⟩

lemma wellKeyed_hashed (h : (Value.obj cmd.payload).wellKeyed = true) :
    cmd.hashed.wellKeyed = true := by
  have hkeys : (["command", "payload"] : List Text).Nodup := by decide
  simp only [Command.hashed, Value.wellKeyed, wellKeyedPairs, Bool.and_eq_true, decide_eq_true_eq,
    Bool.true_and, Bool.and_true] at h ⊢
  exact ⟨hkeys, h⟩

lemma name_injective {verb verb' : Verb} (h : verb.name = verb'.name) : verb = verb' := by
  revert h
  cases verb <;> cases verb' <;> decide

lemma sortKeys_hashed (cmd : Command) : cmd.hashed.sortKeys =
    .obj [("command", .str cmd.verb.name), ("payload", (Value.obj cmd.payload).sortKeys)] := by
  have horder : textLe "command" "payload" = true := by decide
  have hle : keyLe (("command" : Text), (Value.str cmd.verb.name).sortKeys)
      (("payload" : Text), (Value.obj cmd.payload).sortKeys) := horder
  rw [Command.hashed]
  conv_lhs => rw [Value.sortKeys]
  simp only [sortPairs, List.insertionSort_cons, List.insertionSort_nil, List.orderedInsert]
  rw [if_pos hle]
  rfl

lemma canonicalText_eq_ok {rt : Runtime} {v : Value} {t : Text} (h : canonicalText rt v = .ok t) :
    dumpsPadded [] rt.dumpsDepth rt.floatRepr v = .ok t := by
  unfold canonicalText at h
  cases hd : dumpsPadded [] rt.dumpsDepth rt.floatRepr v with
  | error e => simp [hd, Except.mapError] at h
  | ok t' => simpa [hd, Except.mapError] using h

/-- Equal commands have equal digests. -/
lemma digest_eq_of_sameAs {cmd' : Command} {digest digest' : Text}
    (h : canonicalHash pf cmd.hashed = .ok digest)
    (h' : canonicalHash pf cmd'.hashed = .ok digest') (hsame : cmd'.SameAs cmd) :
    digest' = digest := by
  have hsorted : cmd'.hashed.sortKeys = cmd.hashed.sortKeys := by
    rw [sortKeys_hashed, sortKeys_hashed, hsame.1, hsame.2]
  have htext : canonicalText pf.toRuntime cmd'.hashed = canonicalText pf.toRuntime cmd.hashed := by
    simp only [canonicalText, dumpsPadded, hsorted]
  rw [canonicalHash, canonicalJson, htext] at h'
  rw [canonicalHash, canonicalJson, h'] at h
  exact Except.ok.inj h

lemma canonicalHash_eq_ok {v : Value} {digest : Text} (h : canonicalHash pf v = .ok digest) :
    ∃ t bytes, canonicalText pf.toRuntime v = .ok t ∧ encoded t = .ok bytes ∧
      canonicalJson pf.toRuntime v = .ok bytes ∧ pf.sha256 bytes = digest := by
  unfold canonicalHash at h
  cases hjson : canonicalJson pf.toRuntime v with
  | error e => simp [hjson, Except.map] at h
  | ok bytes =>
      rw [hjson] at h
      obtain ⟨t, ht, hbytes⟩ := bind_eq_ok.mp hjson
      exact ⟨t, bytes, ht, hbytes, rfl, Except.ok.inj h⟩

/-- Where hashes tell commands apart, equal digests mean equal commands. -/
lemma sameAs_of_digest_eq {cmd' : Command} {digest : Text}
    (h : canonicalHash pf cmd.hashed = .ok digest)
    (h' : canonicalHash pf cmd'.hashed = .ok digest)
    (hkeyed : cmd.hashed.wellKeyed = true) (hkeyed' : cmd'.hashed.wellKeyed = true)
    (hapart : ToldApart pf cmd' cmd) : cmd'.SameAs cmd := by
  obtain ⟨t, bytes, ht, hbytes, hjson, hdigest⟩ := canonicalHash_eq_ok h
  obtain ⟨t', bytes', ht', hbytes', hjson', hdigest'⟩ := canonicalHash_eq_ok h'
  obtain rfl := hapart.digests bytes' bytes hjson' hjson (hdigest'.trans hdigest.symm)
  obtain rfl := encoded_inj hbytes' hbytes
  have hpad : ([] : Text).all isJsonSpace = true := rfl
  have hsorted : cmd'.hashed.sortKeys = cmd.hashed.sortKeys :=
    sortKeys_eq_of_dumpsPadded_eq hpad (hapart.floats cmd' (by simp)) hkeyed'
      (hapart.floats cmd (by simp)) hkeyed (canonicalText_eq_ok ht') (canonicalText_eq_ok ht)
  rw [sortKeys_hashed, sortKeys_hashed] at hsorted
  simp only [Value.obj.injEq, List.cons.injEq, Prod.mk.injEq, Value.str.injEq, true_and,
    and_true] at hsorted
  exact ⟨name_injective hsorted.1, hsorted.2⟩

/-- An operation on record is answered from its event. -/
lemma execute_of_recorded {event : Event} (hnodup : (db.events.map Event.operationId).Nodup)
    (hevent : event ∈ db.events) (hid : event.operationId = cmd.operationId) :
    execute pf env db cmd = .ok (replay event cmd.digest, db) := by
  have hfind : db.events.find? (fun e => e.operationId = cmd.operationId) = some event := by
    cases hfound : db.events.find? (fun e => e.operationId = cmd.operationId) with
    | none => simpa [hid] using List.find?_eq_none.mp hfound event hevent
    | some found =>
        have hsame : found.operationId = cmd.operationId := by simpa using List.find?_some hfound
        rw [List.inj_on_of_nodup_map hnodup (List.mem_of_find?_eq_some hfound) hevent
          (hsame.trans hid.symm)]
  unfold execute
  rw [hfind]

/-- A recorded answer has an event, with the hash of the command. -/
lemma exists_event_of_recorded (h : execute pf env db cmd = .ok (out, db'))
    (hrecorded : out.recorded = true) :
    ∃ event ∈ db'.events, event.operationId = cmd.operationId ∧
      event.payloadHash = .text cmd.digest ∧ Shows out event := by
  rcases execute_cases h with ⟨event, hevent, hid, rfl, rfl⟩ | ⟨-, event, heffect, hshows⟩
  · have hhash : event.payloadHash = .text cmd.digest := by simpa [replay] using hrecorded
    exact ⟨event, hevent, hid, hhash, by constructor <;> simp [replay, hhash]⟩
  · refine ⟨event, ?_, heffect.operationId_eq, heffect.payloadHash_eq, hshows⟩
    rw [heffect.events_eq]
    simp

/-- The answer tells again what an earlier one told. -/
structure Repeats (answer out : Outcome) : Prop where
  command : answer.command = out.command
  operationId : answer.operationId = out.operationId
  result : answer.result = out.result
  reason : answer.reason = out.reason
  revision : answer.revision = out.revision
  replayed : answer.replayed = true

/-- What sending an operation again does to tables where it is on record with an answer. -/
structure Resent (pf : Platform) (cmd : Command) (out : Outcome) (after : Db) : Prop where
  same : ∀ env request cmd', readRequest pf request = .ok cmd' →
    cmd'.operationId = cmd.operationId → cmd'.SameAs cmd →
    ∃ answer, handleRequest pf env after request = .ok (answer, after) ∧ Repeats answer out
  other : ∀ env request cmd', readRequest pf request = .ok cmd' →
    cmd'.operationId = cmd.operationId → ToldApart pf cmd' cmd → ¬cmd'.SameAs cmd →
    ∃ answer, handleRequest pf env after request = .ok (answer, after) ∧
      answer.result = .rejected ∧ answer.reason = .text "idempotency_conflict" ∧
      answer.recorded = false
  malformed : ∀ env request e, readRequest pf request = .error e →
    handleRequest pf env after request = .error e ∧ serve pf after ⟨env, request⟩ = after

lemma resent_of_event {event : Event} (hcmd : IsCommand pf cmd) (hdb : db.Agrees)
    (hevent : event ∈ db.events) (hid : event.operationId = cmd.operationId)
    (hhash : event.payloadHash = .text cmd.digest) (hshows : Shows out event) :
    Resent pf cmd out db := by
  have hshape := hcmd.wellShaped
  constructor
  · intro env request cmd' hread hsameId hsame
    have hdigest := digest_eq_of_sameAs hshape.digest (IsCommand.wellShaped ⟨request, hread⟩).digest
      hsame
    refine ⟨replay event cmd'.digest, ?_, ?_⟩
    · rw [handleRequest, hread]
      exact execute_of_recorded hdb.operations hevent (hid.trans hsameId.symm)
    · rw [hdigest]
      obtain ⟨hcommand, hop, hresult, hreason, hrevision⟩ := hshows
      constructor <;> simp [replay, hhash, hcommand, hop, hresult, hreason, hrevision]
  · intro env request cmd' hread hsameId hapart hother
    have hshape' : cmd'.WellShaped pf := IsCommand.wellShaped ⟨request, hread⟩
    have hne : event.payloadHash ≠ .text cmd'.digest := by
      rw [hhash]
      intro heq
      have hdigest : cmd.digest = cmd'.digest := Cell.text.inj heq
      exact hother (sameAs_of_digest_eq hshape.digest (hdigest ▸ hshape'.digest)
        (wellKeyed_hashed hshape.keyed) (wellKeyed_hashed hshape'.keyed) hapart)
    refine ⟨replay event cmd'.digest, ?_, ?_⟩
    · rw [handleRequest, hread]
      exact execute_of_recorded hdb.operations hevent (hid.trans hsameId.symm)
    · simp [replay, hne]
  · intro env request e hread
    have hraise : handleRequest pf env db request = .error e := by
      rw [handleRequest, hread]
      rfl
    refine ⟨hraise, ?_⟩
    simp [serve, hraise]

/-- The journal and the cards agree: the accepted events of every card number its revisions from 0 to
where it stands, every operation has one event, what is rejected moves no card, and sending an
operation again writes nothing. -/
structure JournalAgrees (pf : Platform) (db : Db) : Prop where
  journaled : ∀ card ∈ db.cards, Journaled db card
  operations : (db.events.map Event.operationId).Nodup
  rejected : ∀ env request out db', handleRequest pf env db request = .ok (out, db') →
    out.result = .rejected → db'.cards = db.cards
  resent : ∀ env request cmd out db', readRequest pf request = .ok cmd →
    handleRequest pf env db request = .ok (out, db') → out.recorded = true →
    ∀ later : List Call, Resent pf cmd out (run pf db' later)

theorem journal_agrees (pf : Platform) (tasks : List TaskRow) (calls : List Call) :
    JournalAgrees pf (run pf (Db.fresh tasks) calls) := by
  have hdb := agrees_run pf tasks calls
  constructor
  · exact hdb.journaled
  · exact hdb.operations
  · intro env request out db' h hresult
    obtain ⟨cmd, -, hexecute⟩ := bind_eq_ok.mp h
    rcases execute_cases hexecute with ⟨-, -, -, -, rfl⟩ | ⟨-, event, heffect, hshows⟩
    · rfl
    · exact heffect.cards_eq_of_rejected (hshows.result ▸ hresult)
  · intro env request cmd out db' hread h hrecorded later
    have hserve : serve pf (run pf (Db.fresh tasks) calls) ⟨env, request⟩ = db' := by
      simp [serve, h]
    have hrun : run pf db' later = run pf (Db.fresh tasks) (calls ++ [⟨env, request⟩] ++ later) := by
      rw [run_append, run_concat, hserve]
    have hexecute : execute pf env (run pf (Db.fresh tasks) calls) cmd = .ok (out, db') := by
      rw [handleRequest, hread] at h
      exact h
    obtain ⟨event, hevent, hid, hhash, hshows⟩ := exists_event_of_recorded hexecute hrecorded
    refine resent_of_event ⟨request, hread⟩ ?_ ((run_events_extend pf db' later).subset hevent) hid hhash
      hshows
    rw [hrun]
    exact agrees_run pf tasks _

end

/-! ## A resend without an actor -/

/-- A machine without files, at the epoch. -/
def bareEnvironment : Environment where
  disk :=
    { isDir := fun _ => false
      isFile := fun _ => false
      readText := fun _ => .error (.osError "no such file")
      readBytes := fun _ => .error (.osError "no such file")
      resolve := fun path => .ok path
      loadProfile := fun _ => .error (.osError "no such file") }
  clock := ⟨0, by decide, by decide⟩
  lower := id
  gate := fun _ _ _ _ => .ok none

def firstOperation : Text := "00000000-0000-4000-8000-000000000001"

/-- A request for the operation, with the payload. -/
def createItems (payload : List (Text × Value)) : List (Text × Value) :=
  [("command", .str "create"), ("operation_id", .str firstOperation), ("payload", .obj payload)]

def createRequest : Request where
  items := createItems [("actor", .str "u"), ("card_id", .str "c"),
    ("fields", .obj [("title", .str "t")])]
  keyed := by decide +kernel

def anonymousRequest : Request where
  items := createItems [("card_id", .str "c"), ("fields", .obj [("title", .str "t")])]
  keyed := by decide +kernel

/-- The tables with the card on record. -/
def createdTables : Db :=
  run (hashingPlatform placeDigest isHexDigest_placeDigest) (Db.fresh [])
    [⟨bareEnvironment, createRequest⟩]

/-- The operation is on record as accepted, and its resend with a payload that names no actor is no
conflict: it raises. -/
theorem not_conflict_anonymous :
    (createdTables.events.map fun e => (e.operationId, e.result)) = [(firstOperation, .accepted)] ∧
      ¬∃ out after, handleRequest (hashingPlatform placeDigest (by decide)) bareEnvironment
        createdTables anonymousRequest = .ok (out, after) ∧
          out.reason = .text "idempotency_conflict" := by
  refine ⟨by decide +kernel, ?_⟩
  have hraise : handleRequest (hashingPlatform placeDigest (by decide)) bareEnvironment
      createdTables anonymousRequest =
        .error (.kanbanError "kanban request requires an actor") := by
    rfl
  rintro ⟨out, after, h, -⟩
  rw [hraise] at h
  cases h

end Kanban

end AgentOrch
