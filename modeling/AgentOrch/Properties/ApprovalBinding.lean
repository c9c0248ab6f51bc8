import AgentOrch.Properties.CardJournal

/-!
# What an approval covers

An approval names the event that froze it, and that event holds the hash, the generation and the
sources the card still shows.  Every command either leaves the approval and the scope of its card
alone, takes the approval away, or approves anew under the next generation; so an approval in force
covers the scope of the moment it was given.
-/

namespace AgentOrch

open Py Json

namespace Kanban

section
variable {pf : Platform} {env : Environment} {db db' : Db} {cmd : Command}

/-! ## The frozen payload -/

/-- What an approval payload says of its card. -/
structure Freezes (frozen : List (Text × Value)) (cardId : Text) (generation : ℤ)
    (specHash acceptanceHash profileHash : Option Text) : Prop where
  cardId : getValue "card_id" frozen = .str cardId
  generation : getValue "approval_generation" frozen = .int generation
  specHash : getValue "spec_hash" frozen = Trajectory.optText specHash
  acceptanceHash : getValue "acceptance_hash" frozen = Trajectory.optText acceptanceHash
  profileHash : getValue "profile_hash" frozen = Trajectory.optText profileHash

lemma buildApprovalPayload_freezes {card : Card} {frozen : List (Text × Value)}
    (h : buildApprovalPayload pf env card = .ok frozen) :
    ∃ specHash acceptanceHash profileHash : Text,
      Freezes frozen card.cardId (card.approvalGeneration + 1) (some specHash)
        (some acceptanceHash) (some profileHash) := by
  unfold buildApprovalPayload at h
  split at h
  · cases h
  · split at h
    · cases h
    · simp only [stop_bind_eq_ok] at h
      obtain ⟨⟨specText, specHash⟩, -, ⟨acceptanceText, acceptanceHash⟩, -, ⟨reviewText, reviewHash⟩,
        -, ⟨-, -⟩, -, profileSnapshot, -, profileHash, -, -, -, -, -, -, -, -, -,
        ⟨risk, estimate, commands⟩, -, -, -, -, -, -, -, -, -, -, -, repoPath, -, worktreePath, -,
        gitCommonDir, -, specPath, -, acceptancePath, -, specReviewPointer, -, profilePath, -, h⟩ := h
      simp only [pure, Except.pure, Except.ok.injEq] at h
      subst h
      exact ⟨specHash, acceptanceHash, profileHash, by constructor <;> rfl⟩

/-! ## What a change does to an approval -/

/-- A change keeps the approval with all it covers, takes it away, or gives a new one. -/
inductive ApprovalMove (pf : Platform) (env : Environment) (cmd : Command) (card : Card)
    (change : Change) : Prop
  | kept (hverb : cmd.verb ≠ .approve)
      (happroval : (change.assign card).approval = card.approval)
      (hgeneration : (change.assign card).approvalGeneration = card.approvalGeneration)
      (hspec : (change.assign card).specHash = card.specHash)
      (hacceptance : (change.assign card).acceptanceHash = card.acceptanceHash)
      (hprofile : (change.assign card).profileHash = card.profileHash)
      (hscope : (change.assign card).scope = card.scope)
      (hstate : (change.assign card).manualState = card.manualState ∨
        (change.assign card).manualState = .archived ∨
        (change.assign card).manualState = .done ∧ card.approval.isSome = true)
  | revoked (hverb : cmd.verb ≠ .approve)
      (happroval : (change.assign card).approval = none)
      (hgeneration : (change.assign card).approvalGeneration = card.approvalGeneration)
      (hstate : (change.assign card).manualState ≠ .ready)
  | approved {frozen : List (Text × Value)} {digest : Text}
      (hverb : cmd.verb = .approve)
      (hfrozen : buildApprovalPayload pf env card = .ok frozen)
      (hpayload : canonicalText pf.toRuntime (.obj frozen) = .ok change.record.payload)
      (hdigest : canonicalHash pf (.obj frozen) = .ok digest)
      (hcard : change.assign card =
        card.approved ⟨cmd.actor, env.clock.now, digest, cmd.operationId⟩ frozen)

lemma storable_fields {rt : Runtime} {fields : List (Field × Value)}
    {stored : List (Field × Option Text)} (h : storable rt fields = .ok stored) :
    stored.map Prod.fst = fields.map Prod.fst := by
  induction fields generalizing stored with
  | nil =>
      simp only [storable, List.mapM_nil, pure, Except.pure, Except.ok.injEq] at h
      rw [← h]
      rfl
  | cons p rest ih =>
      obtain ⟨f, v⟩ := p
      simp only [storable, List.mapM_cons, bind_eq_ok] at h
      obtain ⟨first, hfirst, others, hothers, h⟩ := h
      simp only [pure, Except.pure, Except.ok.injEq] at h
      subst h
      have hname : first.1 = f := by
        cases v with
        | str t => rw [← Except.ok.inj hfirst]
        | null => rw [← Except.ok.inj hfirst]
        | _ =>
            obtain ⟨t, -, h⟩ := bind_eq_ok.mp hfirst
            rw [← Except.ok.inj h]
      rw [List.map_cons, List.map_cons, hname, ih hothers]

/-- Fields outside the scope leave the scope alone. -/
lemma scope_assignAll {stored : List (Field × Option Text)}
    (h : ∀ p ∈ stored, ∀ f : ScopeField, p.1 ≠ .scope f) (card : Card) :
    (card.assignAll stored).scope = card.scope := by
  induction stored generalizing card with
  | nil => rfl
  | cons p rest ih =>
      show ((card.assign p.1 p.2).assignAll rest).scope = card.scope
      rw [ih fun q hq => h q (List.mem_cons_of_mem p hq)]
      have hp := h p List.mem_cons_self
      cases hf : p.1 with
      | scope f => exact absurd hf (hp f)
      | title => rfl
      | note => rfl
      | priority => rfl

lemma no_scope_of_untouched {fields : List (Field × Value)}
    (h : (touchedScope fields).isEmpty = true) :
    ∀ p ∈ fields, ∀ f : ScopeField, p.1 ≠ .scope f := by
  intro p hp f hf
  have hmem : f.name ∈ touchedScope fields := by
    refine (List.mem_insertionSort _).mpr (List.mem_filterMap.mpr ⟨p, hp, ?_⟩)
    rw [hf]
  rw [List.isEmpty_iff.mp h] at hmem
  exact List.not_mem_nil hmem

section
variable (card : Card) (stored : List (Field × Option Text))

@[simp] lemma approval_assignAll : (card.assignAll stored).approval = card.approval :=
  assignAll_frame Card.approval (fun card f value => by cases f <;> rfl) card stored

@[simp] lemma approvalGeneration_assignAll :
    (card.assignAll stored).approvalGeneration = card.approvalGeneration :=
  assignAll_frame Card.approvalGeneration (fun card f value => by cases f <;> rfl) card stored

@[simp] lemma manualState_assignAll : (card.assignAll stored).manualState = card.manualState :=
  assignAll_frame Card.manualState (fun card f value => by cases f <;> rfl) card stored

@[simp] lemma specHash_assignAll : (card.assignAll stored).specHash = card.specHash :=
  assignAll_frame Card.specHash (fun card f value => by cases f <;> rfl) card stored

@[simp] lemma acceptanceHash_assignAll :
    (card.assignAll stored).acceptanceHash = card.acceptanceHash :=
  assignAll_frame Card.acceptanceHash (fun card f value => by cases f <;> rfl) card stored

@[simp] lemma profileHash_assignAll : (card.assignAll stored).profileHash = card.profileHash :=
  assignAll_frame Card.profileHash (fun card f value => by cases f <;> rfl) card stored

end

lemma approval_scopeEdited (card : Card) : card.scopeEdited.approval = none := by
  cases h : card.approval with
  | none => simp [Card.scopeEdited, h]
  | some approval => simp [Card.scopeEdited, h, Card.revoked]

lemma approvalGeneration_scopeEdited (card : Card) :
    card.scopeEdited.approvalGeneration = card.approvalGeneration := by
  simp only [Card.scopeEdited]
  split <;> rfl

lemma manualState_scopeEdited (card : Card) : card.scopeEdited.manualState ≠ .ready := by
  have hstate : ∀ state : ManualState,
      (if state = .ready then ManualState.inbox else state) ≠ .ready := by
    intro state
    cases state <;> decide
  simp only [Card.scopeEdited]
  split
  · exact hstate card.revoked.manualState
  · exact hstate card.manualState

lemma Changes.approvalMove {card : Card} {change : Change}
    (h : Changes pf env db cmd card change) : ApprovalMove pf env cmd card change := by
  cases h with
  | reported hverb =>
      exact .kept (by simp [hverb]) rfl rfl rfl rfl rfl rfl (.inl rfl)
  | placed hverb => exact .kept (by simp [hverb]) rfl rfl rfl rfl rfl rfl (.inl rfl)
  | @edited fields stored payload marks hverb _ hstored =>
      by_cases htouched : (touchedScope fields).isEmpty = true
      · have hplain : ∀ p ∈ stored, ∀ f : ScopeField, p.1 ≠ .scope f := by
          intro p hp f hf
          have hmem : p.1 ∈ fields.map Prod.fst := by
            rw [← storable_fields hstored]
            exact List.mem_map.mpr ⟨p, hp, rfl⟩
          obtain ⟨q, hq, heq⟩ := List.mem_map.mp hmem
          exact no_scope_of_untouched htouched q hq f (heq.trans hf)
        refine .kept (by simp [hverb]) ?_ ?_ ?_ ?_ ?_ ?_ (.inl ?_)
        all_goals simp [htouched, scope_assignAll hplain]
      · refine .revoked (by simp [hverb]) ?_ ?_ ?_
        · simp [htouched, approval_scopeEdited]
        · simp [htouched, approvalGeneration_scopeEdited]
        · simp [htouched, manualState_scopeEdited]
  | approved hverb hfrozen hpayload hdigest => exact .approved hverb hfrozen hpayload hdigest rfl
  | invalidated hverb htarget =>
      refine .revoked (by rcases hverb with hverb | hverb <;> simp [hverb]) rfl rfl ?_
      rcases htarget with rfl | rfl
      · exact ManualState.noConfusion
      · exact ManualState.noConfusion
  | archived hverb =>
      exact .kept (by simp [hverb]) rfl rfl rfl rfl rfl rfl (.inr (.inl rfl))
  | paused hverb => exact .kept (by simp [hverb]) rfl rfl rfl rfl rfl rfl (.inl rfl)
  | finished hverb happroved =>
      exact .kept (by simp [hverb]) rfl rfl rfl rfl rfl rfl (.inr (.inr ⟨rfl, happroved⟩))

/-! ## The invariant -/

/-- The event is an accepted approval of the card, and its stored payload is what was frozen. -/
structure Froze (pf : Platform) (event : Event) (cardId : Text) (frozen : List (Text × Value)) :
    Prop where
  kind : event.kind = "approve"
  result : event.result = .accepted
  cardId : event.cardId = some cardId
  payload : ∃ t, canonicalText pf.toRuntime (.obj frozen) = .ok t ∧ event.payload = .text t

/-- The SHA-256 of the stored text. -/
def HasHash (pf : Platform) (stored : Cell) (hash : Text) : Prop :=
  ∃ t bytes, stored = .text t ∧ encoded t = .ok bytes ∧ pf.sha256 bytes = hash

/-- What holds of the approval columns of a card. -/
structure ApprovalBound (pf : Platform) (db : Db) (card : Card) : Prop where
  ready : card.manualState = .ready → card.approval.isSome = true
  state : card.approval.isSome = true →
    card.manualState = .ready ∨ card.manualState = .done ∨ card.manualState = .archived
  event : ∀ approval, card.approval = some approval → ∃ event ∈ db.events, ∃ frozen,
    event.operationId = approval.eventId ∧ Froze pf event card.cardId frozen ∧
      HasHash pf event.payload approval.hash ∧
      Freezes frozen card.cardId card.approvalGeneration card.specHash card.acceptanceHash
        card.profileHash

/-- The accepted approvals of a card, in the order they were recorded. -/
def Db.approvals (db : Db) (cardId : Text) : List Event :=
  (db.history cardId).filter fun e => e.kind = ("approve" : Text)

/-- The generation the stored payload of an approval names. -/
def OfGeneration (pf : Platform) (event : Event) (generation : ℤ) : Prop :=
  ∃ cardId frozen, Froze pf event cardId frozen ∧
    getValue "approval_generation" frozen = .int generation

/-- The approvals of a card have rising generations, up to that of the card. -/
def Ascending (pf : Platform) (db : Db) (card : Card) : Prop :=
  ∃ generations : List ℤ, List.Forall₂ (OfGeneration pf) (db.approvals card.cardId) generations ∧
    generations.Pairwise (· < ·) ∧ ∀ g ∈ generations, g ≤ card.approvalGeneration

/-- The approval columns of every card are bound. -/
def Db.ApprovalsBound (pf : Platform) (db : Db) : Prop :=
  ∀ card ∈ db.cards, ApprovalBound pf db card ∧ Ascending pf db card

lemma ApprovalBound.mono {card : Card} (h : ApprovalBound pf db card)
    (hevents : db.events <+: db'.events) : ApprovalBound pf db' card := by
  refine ⟨h.ready, h.state, fun approval happroval => ?_⟩
  obtain ⟨event, hevent, rest⟩ := h.event approval happroval
  exact ⟨event, hevents.subset hevent, rest⟩

lemma approvals_concat {event : Event} (h : db'.events = db.events ++ [event]) (id : Text) :
    db'.approvals id = db.approvals id ++
      if (event.cardId = some id ∧ event.result = .accepted) ∧ event.kind = ("approve" : Text) then
        [event] else [] := by
  rw [Db.approvals, history_concat h, List.filter_append]
  by_cases hevent : event.cardId = some id ∧ event.result = .accepted <;>
    by_cases hkind : event.kind = ("approve" : Text) <;> simp [Db.approvals, hevent, hkind]

lemma Ascending.congr {card c : Card} (h : Ascending pf db card)
    (happrovals : db'.approvals c.cardId = db.approvals card.cardId)
    (hgeneration : c.approvalGeneration = card.approvalGeneration) : Ascending pf db' c := by
  obtain ⟨generations, hall, hsorted, hle⟩ := h
  refine ⟨generations, ?_, hsorted, ?_⟩
  · rw [happrovals]
    exact hall
  · rw [hgeneration]
    exact hle

lemma approvals_of_other {event : Event} (h : db'.events = db.events ++ [event]) {id : Text}
    (hother : (event.cardId = some id → event.result = .rejected) ∨ event.kind ≠ "approve") :
    db'.approvals id = db.approvals id := by
  rw [approvals_concat h, if_neg, List.append_nil]
  rintro ⟨⟨hid, hresult⟩, hkind⟩
  rcases hother with hrejected | hne
  · rw [hrejected hid] at hresult
    exact absurd hresult (by decide)
  · exact hne hkind

/-- An approval stays in force while the columns it covers stay. -/
lemma ApprovalBound.kept {card c : Card} (h : ApprovalBound pf db card)
    (hevents : db.events <+: db'.events) (hcardId : c.cardId = card.cardId)
    (happroval : c.approval = card.approval)
    (hgeneration : c.approvalGeneration = card.approvalGeneration)
    (hspec : c.specHash = card.specHash) (hacceptance : c.acceptanceHash = card.acceptanceHash)
    (hprofile : c.profileHash = card.profileHash)
    (hstate : c.manualState = card.manualState ∨ c.manualState = .archived ∨
      c.manualState = .done ∧ card.approval.isSome = true) : ApprovalBound pf db' c := by
  refine ⟨fun hready => ?_, fun hsome => ?_, fun approval hgiven => ?_⟩
  · rw [happroval]
    rcases hstate with hsame | hother | ⟨hother, -⟩
    · exact h.ready (hsame ▸ hready)
    · rw [hother] at hready
      cases hready
    · rw [hother] at hready
      cases hready
  · rw [happroval] at hsome
    rcases hstate with hsame | hother | ⟨hother, -⟩
    · rw [hsame]
      exact h.state hsome
    · exact .inr (.inr hother)
    · exact .inr (.inl hother)
  · obtain ⟨event, hevent, frozen, hid, hfroze, hhash, hfreezes⟩ :=
      h.event approval (happroval ▸ hgiven)
    refine ⟨event, hevents.subset hevent, frozen, hid, hcardId ▸ hfroze, hhash, ?_⟩
    rw [hcardId, hgeneration, hspec, hacceptance, hprofile]
    exact hfreezes

lemma ApprovalBound.revoked {c : Card} (hnone : c.approval = none)
    (hstate : c.manualState ≠ .ready) : ApprovalBound pf db c := by
  refine ⟨fun hready => absurd hready hstate, fun hsome => ?_, fun approval hgiven => ?_⟩
  · rw [hnone] at hsome
    cases hsome
  · rw [hnone] at hgiven
    cases hgiven

/-- A new approval covers what the card then shows. -/
lemma approved_bound {card : Card} {frozen : List (Text × Value)} {digest : Text} {event : Event}
    (hfrozen : buildApprovalPayload pf env card = .ok frozen)
    (hdigest : canonicalHash pf (.obj frozen) = .ok digest)
    (hevent : event ∈ db'.events) (hid : event.operationId = cmd.operationId)
    (hfroze : Froze pf event card.cardId frozen) {c : Card}
    (hcardId : c.cardId = card.cardId)
    (hcard : c = { card.approved ⟨cmd.actor, env.clock.now, digest, cmd.operationId⟩ frozen with
      revision := c.revision
      updatedAt := c.updatedAt }) : ApprovalBound pf db' c := by
  obtain ⟨specHash, acceptanceHash, profileHash, hfreezes⟩ := buildApprovalPayload_freezes hfrozen
  obtain ⟨t, htext, hstored⟩ := hfroze.payload
  obtain ⟨t', bytes, htext', hbytes, -, hsha⟩ := canonicalHash_eq_ok hdigest
  obtain rfl : t = t' := Except.ok.inj (htext.symm.trans htext')
  have hspec : c.specHash = some specHash := by
    rw [hcard]
    simp only [Card.approved, hfreezes.specHash]
    rfl
  have hacceptance : c.acceptanceHash = some acceptanceHash := by
    rw [hcard]
    simp only [Card.approved, hfreezes.acceptanceHash]
    rfl
  have hprofile : c.profileHash = some profileHash := by
    rw [hcard]
    simp only [Card.approved, hfreezes.profileHash]
    rfl
  refine ⟨fun _ => by rw [hcard]; rfl, fun _ => .inl (by rw [hcard]; rfl), ?_⟩
  intro approval happroval
  have hgiven : c.approval = some ⟨cmd.actor, env.clock.now, digest, cmd.operationId⟩ := by
    rw [hcard]
    rfl
  obtain rfl := Option.some.inj (happroval.symm.trans hgiven)
  have hgeneration : c.approvalGeneration = card.approvalGeneration + 1 := by
    rw [hcard]
    rfl
  refine ⟨event, hevent, frozen, hid, hcardId ▸ hfroze, ⟨t, bytes, hstored, hbytes, hsha⟩, ?_⟩
  rw [hcardId, hgeneration, hspec, hacceptance, hprofile]
  exact hfreezes

lemma Effect.approvalBound {event : Event} (h : Effect pf env db cmd event db') (hdb : db.Agrees)
    (hbound : db.ApprovalsBound pf) : db'.ApprovalsBound pf := by
  have hevents := h.events_eq
  have hextends : db.events <+: db'.events := by
    rw [hevents]
    exact List.prefix_append _ _
  intro c hc
  cases h.fate hdb.cardIds hc with
  | untouched hold hevent =>
      obtain ⟨happroval, hascending⟩ := hbound c hold
      exact ⟨happroval.mono hextends,
        hascending.congr (approvals_of_other hevents (.inl hevent)) rfl⟩
  | born hverb hcard hnew _ hevent =>
      have hnone : c.approval = none := by
        rw [hcard, approval_assignAll]
        rfl
      have hinbox : c.manualState = .inbox := by
        rw [hcard, manualState_assignAll]
        rfl
      have hempty : db'.approvals c.cardId = [] := by
        rw [approvals_of_other hevents, Db.approvals, history_eq_nil_of_new hdb hnew]
        · rfl
        · right
          rw [hevent]
          show cmd.verb.name ≠ Verb.approve.name
          rw [hverb]
          decide
      refine ⟨.revoked hnone (by rw [hinbox]; decide), [], ?_, List.Pairwise.nil, fun g hg => ?_⟩
      · rw [hempty]
        exact .nil
      · cases hg
  | @moved card change delta _ _ hold _ _ hchange _ _ _ hcard hevent =>
      obtain ⟨happroval, hascending⟩ := hbound card hold
      have hcardId : c.cardId = card.cardId := by
        rw [hcard]
        exact hchange.cardId_eq card
      have hother : cmd.verb ≠ .approve → event.kind ≠ "approve" := by
        rw [hevent]
        exact fun hverb heq => hverb (name_injective heq)
      cases hchange.approvalMove with
      | kept hverb hsame hgeneration hspec hacceptance hprofile _ hstate =>
          have happrovals : db'.approvals c.cardId = db.approvals card.cardId := by
            rw [hcardId]
            exact approvals_of_other hevents (.inr (hother hverb))
          subst hcard
          exact ⟨happroval.kept hextends hcardId hsame hgeneration hspec hacceptance hprofile hstate,
            hascending.congr happrovals hgeneration⟩
      | revoked hverb hnone hgeneration hstate =>
          have happrovals : db'.approvals c.cardId = db.approvals card.cardId := by
            rw [hcardId]
            exact approvals_of_other hevents (.inr (hother hverb))
          subst hcard
          exact ⟨.revoked hnone hstate, hascending.congr happrovals hgeneration⟩
      | @approved frozen digest hverb hfrozen hpayload hdigest hassign =>
          have hfroze : Froze pf event card.cardId frozen := by
            rw [hevent]
            refine ⟨?_, rfl, rfl, change.record.payload, hpayload, rfl⟩
            show cmd.verb.name = Verb.approve.name
            rw [hverb]
          have hmem : event ∈ db'.events := by
            rw [hevents]
            simp
          refine ⟨approved_bound hfrozen hdigest hmem h.operationId_eq hfroze hcardId ?_, ?_⟩
          · rw [hcard, ← hassign]
            rfl
          · obtain ⟨specHash, acceptanceHash, profileHash, hfreezes⟩ :=
              buildApprovalPayload_freezes hfrozen
            obtain ⟨generations, hall, hsorted, hle⟩ := hascending
            have hgeneration : c.approvalGeneration = card.approvalGeneration + 1 := by
              rw [hcard]
              show (change.assign card).approvalGeneration = _
              rw [hassign]
              rfl
            refine ⟨generations ++ [card.approvalGeneration + 1], ?_, ?_, ?_⟩
            · rw [hcardId, approvals_concat hevents,
                if_pos ⟨⟨hfroze.cardId, hfroze.result⟩, hfroze.kind⟩]
              exact List.rel_append hall
                (.cons ⟨card.cardId, frozen, hfroze, hfreezes.generation⟩ .nil)
            · refine List.pairwise_append.mpr ⟨hsorted, List.pairwise_singleton _ _, ?_⟩
              intro g hg g' hg'
              rw [List.mem_singleton] at hg'
              have := hle g hg
              omega
            · intro g hg
              rw [hgeneration]
              rcases List.mem_append.mp hg with hg | hg
              · have := hle g hg
                omega
              · rw [List.mem_singleton.mp hg]

lemma approvalBound_run (pf : Platform) (tasks : List TaskRow) (calls : List Call) :
    (run pf (Db.fresh tasks) calls).ApprovalsBound pf := by
  refine run_invariant tasks ?_ (fun db db' hdb hbound hstep => ?_) calls
  · intro card hcard
    cases hcard
  · cases hstep with
    | idle => exact hbound
    | recorded _ _ heffect => exact heffect.approvalBound hdb hbound

/-! ## The scope an approval covers -/

/-- A card with an approval had its scope at every moment since the approval was recorded. -/
lemma scope_since_approval (pf : Platform) (tasks : List TaskRow) (calls : List Call) :
    ∀ card ∈ (run pf (Db.fresh tasks) calls).cards, ∀ approval, card.approval = some approval →
      ∀ before after, calls = before ++ after →
        approval.eventId ∈ (run pf (Db.fresh tasks) before).events.map Event.operationId →
        ∃ c ∈ (run pf (Db.fresh tasks) before).cards,
          c.cardId = card.cardId ∧ c.scope = card.scope := by
  induction calls using List.reverseRecOn with
  | nil =>
      intro card hcard
      cases hcard
  | append_singleton calls call ih =>
      intro card hcard approval happroval before after hsplit hrecorded
      rcases List.eq_nil_or_concat after with rfl | ⟨after', last, rfl⟩
      · rw [List.append_nil] at hsplit
        subst hsplit
        exact ⟨card, hcard, rfl, rfl⟩
      · rw [List.concat_eq_append, ← List.append_assoc] at hsplit
        obtain ⟨hcalls, -⟩ := List.append_inj' hsplit rfl
        rw [run_concat] at hcard
        have hstep := serve_step pf (run pf (Db.fresh tasks) calls) call
        generalize serve pf (run pf (Db.fresh tasks) calls) call = db' at hcard hstep
        cases hstep with
        | idle => exact ih card hcard approval happroval before after' hcalls hrecorded
        | recorded _ hnew heffect =>
            cases heffect.fate (agrees_run pf tasks calls).cardIds hcard with
            | untouched hold => exact ih card hold approval happroval before after' hcalls hrecorded
            | born _ hblank =>
                rw [hblank, approval_assignAll] at happroval
                cases happroval
            | @moved old change _ _ _ hold _ _ hchange _ _ _ hmoved =>
                have hid : card.cardId = old.cardId := by
                  rw [hmoved]
                  exact hchange.cardId_eq old
                subst hmoved
                replace happroval : (change.assign old).approval = some approval := happroval
                cases hchange.approvalMove with
                | kept _ hsame _ _ _ _ hscope =>
                    obtain ⟨c, hc, hcid, hcscope⟩ :=
                      ih old hold approval (hsame ▸ happroval) before after' hcalls hrecorded
                    exact ⟨c, hc, hcid.trans hid.symm, hcscope.trans hscope.symm⟩
                | revoked _ hnone =>
                    rw [hnone] at happroval
                    cases happroval
                | approved _ _ _ _ hassign =>
                    -- the operation of this very step was not on record before it
                    rw [hassign] at happroval
                    obtain rfl := Option.some.inj happroval
                    have hextends := run_events_extend pf
                      (run pf (Db.fresh tasks) before) after'
                    rw [← run_append, ← hcalls] at hextends
                    exact absurd (List.map_subset _ hextends.subset hrecorded) hnew

/-- What an approval binds, after a sequence of requests. -/
structure ApprovalBinding (pf : Platform) (tasks : List TaskRow) (calls : List Call) : Prop where
  bound : ∀ card ∈ (run pf (Db.fresh tasks) calls).cards,
    ApprovalBound pf (run pf (Db.fresh tasks) calls) card
  scope : ∀ card ∈ (run pf (Db.fresh tasks) calls).cards, ∀ approval,
    card.approval = some approval → ∀ before after, calls = before ++ after →
      approval.eventId ∈ (run pf (Db.fresh tasks) before).events.map Event.operationId →
      ∃ c ∈ (run pf (Db.fresh tasks) before).cards,
        c.cardId = card.cardId ∧ c.scope = card.scope
  generations : ∀ card ∈ (run pf (Db.fresh tasks) calls).cards, ∃ generations : List ℤ,
    List.Forall₂ (OfGeneration pf) ((run pf (Db.fresh tasks) calls).approvals card.cardId)
      generations ∧ generations.Pairwise (· < ·)

theorem approval_binding (pf : Platform) (tasks : List TaskRow) (calls : List Call) :
    ApprovalBinding pf tasks calls := by
  have hbound := approvalBound_run pf tasks calls
  constructor
  · exact fun card hcard => (hbound card hcard).1
  · exact scope_since_approval pf tasks calls
  · intro card hcard
    obtain ⟨generations, hall, hsorted, -⟩ := (hbound card hcard).2
    exact ⟨generations, hall, hsorted⟩

end

end Kanban

end AgentOrch
