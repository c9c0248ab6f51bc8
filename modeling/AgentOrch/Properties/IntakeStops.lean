import AgentOrch.Construction.StageGraph
import AgentOrch.Properties.IntakeAuthority

/-!
# Where intake stops

A reply is untrusted, and intake means to stop the task on whatever it cannot use.  What a reply can
still make it raise are the refusals of the JSON reader that are no `JSONDecodeError`, of the checks
or of the receipt, and a text that has no encoding.  The receipt itself keeps no word of the reply.
-/

namespace AgentOrch

open Py Json

namespace Intake

/-! ## Refusing -/

/-- The step fails only by refusing the reply. -/
def Refusing {α : Type} (x : Except Failure α) : Prop :=
  ∀ e, x = .error e → ∃ message, e = .envelopeResolverError message

section
variable {α β : Type}

lemma Refusing.bind {x : Except Failure α} {f : α → Except Failure β} (hx : Refusing x)
    (hf : ∀ a, x = .ok a → Refusing (f a)) : Refusing (x >>= f) := by
  intro e he
  cases x with
  | error e' =>
      obtain rfl : e' = e := Except.error.inj he
      exact hx e' rfl
  | ok a => exact hf a rfl e he

lemma refusing_ok (a : α) : Refusing (.ok a : Except Failure α) := nofun

lemma refusing_pure (a : α) : Refusing (pure a : Except Failure α) := refusing_ok a

lemma refusing_error (message : Text) :
    Refusing (.error (.envelopeResolverError message) : Except Failure α) := by
  intro e he
  exact ⟨message, (Except.error.inj he).symm⟩

lemma refusing_throw (message : Text) :
    Refusing (throw (.envelopeResolverError message) : Except Failure α) := refusing_error message

lemma refusing_demand (condition : Bool) (message : Text) : Refusing (demand condition message) := by
  unfold demand
  split_ifs
  · exact refusing_ok ()
  · exact refusing_error message

lemma returns_bind {x : Except Failure α} {f : α → Except Failure β} (hx : ∃ a, x = .ok a)
    (hf : ∀ a, ∃ b, f a = .ok b) : ∃ b, x >>= f = .ok b := by
  obtain ⟨a, rfl⟩ := hx
  exact hf a

lemma refusing_of_ok {x : Except Failure α} (h : ∃ a, x = .ok a) : Refusing x := by
  obtain ⟨a, rfl⟩ := h
  exact refusing_ok a

end

section
variable {m : Machine} {r : Request} {axis : Text}

lemma refusing_proposedMembers (axis : Text) (entry : List (Text × Value)) :
    Refusing (proposedMembers axis entry) := by
  unfold proposedMembers
  split
  · exact refusing_error _
  · refine (refusing_demand _ _).bind fun _ _ => ?_
    refine (refusing_demand _ _).bind fun _ _ => ?_
    exact (refusing_demand _ _).bind fun _ _ => refusing_pure _

lemma refusing_proposedEvidence (axis : Text) (entry : List (Text × Value)) :
    Refusing (proposedEvidence axis entry) := by
  unfold proposedEvidence
  split
  · exact refusing_error _
  · exact (refusing_demand _ _).bind fun _ _ => refusing_pure _

lemma refusing_proposedDetail (axis : Text) (entry : List (Text × Value)) :
    Refusing (proposedDetail axis entry) := by
  unfold proposedDetail
  split
  · exact refusing_ok _
  · exact refusing_error _

lemma refusing_policyAxis (axis state : Text) (entry : List (Text × Value)) :
    Refusing (policyAxis m r axis state entry) := by
  unfold policyAxis
  split_ifs
  · exact refusing_ok _
  · refine (refusing_proposedEvidence _ _).bind fun _ _ => ?_
    exact (refusing_demand _ _).bind fun _ _ => refusing_pure _
  · exact refusing_ok _

lemma refusing_silentProposal (axis : Text) (members : List Text) :
    Refusing (silentProposal m r axis members) := by
  unfold silentProposal
  split_ifs
  · exact refusing_ok _
  · exact (refusing_demand _ _).bind fun _ _ => refusing_pure _
  · exact (refusing_demand _ _).bind fun _ _ => refusing_pure _
  · exact (refusing_demand _ _).bind fun _ _ => refusing_pure _

lemma refusing_checkQuotes (axis : Text) (pairs : List (Text × Text)) :
    Refusing (checkQuotes m r axis pairs) := by
  induction pairs with
  | nil => exact refusing_ok _
  | cons p pairs ih => exact (refusing_demand _ _).bind fun _ _ => ih

/-- Where every path expands, the loop over the write targets returns. -/
lemma writeTargets_returns {worktree : Option Text}
    (hpaths : ∀ raw, ∃ target, normaliseWriteTarget m raw worktree = .ok target)
    (members targets : List Text) : ∃ result, writeTargets m worktree targets members = .ok result := by
  induction members generalizing targets with
  | nil => exact ⟨_, rfl⟩
  | cons member members ih =>
      obtain ⟨target, htarget⟩ := hpaths member
      rw [writeTargets, htarget]
      cases target with
      | none => exact ⟨_, rfl⟩
      | some target => exact ih _

lemma refusing_declaredProposal
    (hpaths : ∀ raw, ∃ target, normaliseWriteTarget m raw r.worktree = .ok target) (axis : Text)
    (members quotes : List Text) : Refusing (declaredProposal m r axis members quotes) := by
  unfold declaredProposal declaredEmpty
  split_ifs
  · exact refusing_ok _
  · exact refusing_ok _
  · exact refusing_ok _
  · exact refusing_error _
  · refine (refusing_demand _ _).bind fun _ _ => ?_
    refine (refusing_checkQuotes _ _).bind fun _ _ => ?_
    exact refusing_pure _
  · refine (refusing_demand _ _).bind fun _ _ => ?_
    refine (refusing_checkQuotes _ _).bind fun _ _ => ?_
    refine (refusing_of_ok (writeTargets_returns hpaths _ _)).bind fun result _ => ?_
    cases result with
    | error member => exact refusing_pure _
    | ok targets => exact refusing_pure _

lemma refusing_axisFromProposal
    (hpaths : ∀ raw, ∃ target, normaliseWriteTarget m raw r.worktree = .ok target) (axis : Text)
    (entry : Value) : Refusing (axisFromProposal m r axis entry) := by
  unfold axisFromProposal
  cases entry with
  | obj items =>
      refine (refusing_demand _ _).bind fun _ _ => ?_
      split
      · exact refusing_throw _
      · next state _ =>
        refine (refusing_proposedDetail _ _).bind fun detail _ => ?_
        by_cases hunresolved : state = ("unresolved" : Text)
        · rw [if_pos hunresolved]
          exact refusing_pure _
        rw [if_neg hunresolved]
        by_cases henum : axis = envelopeEnumAxis
        · rw [if_pos henum]
          exact refusing_policyAxis _ _ _
        rw [if_neg henum]
        refine (refusing_proposedMembers _ _).bind fun members _ => ?_
        refine (refusing_proposedEvidence _ _).bind fun quotes _ => ?_
        split_ifs
        · exact refusing_silentProposal _ _
        · exact refusing_declaredProposal hpaths _ _ _
  | _ => exact refusing_error _

lemma refusing_axesFrom
    (hpaths : ∀ raw, ∃ target, normaliseWriteTarget m raw r.worktree = .ok target)
    (payload : List (Text × Value)) (names : List Text) :
    Refusing (axesFrom m r payload names) := by
  induction names with
  | nil => exact refusing_ok _
  | cons name names ih =>
      refine (refusing_axisFromProposal hpaths _ _).bind fun _ _ => ?_
      exact ih.bind fun _ _ => refusing_pure _

lemma refusing_proposedCandidates (payload : List (Text × Value))
    (axes : List (Text × EnvelopeAxis)) : Refusing (proposedCandidates payload axes) := by
  unfold proposedCandidates
  split
  · exact refusing_ok _
  · refine (refusing_demand _ _).bind fun _ _ => ?_
    split
    · exact refusing_throw _
    · refine (refusing_demand _ _).bind fun _ _ => ?_
      exact (refusing_demand _ _).bind fun _ _ => refusing_pure _

end

/-! ## What a reply makes the checks raise -/

/-- The reader refuses the proposal of a framed reply with another error than a
`JSONDecodeError`. -/
def Undecodable (m : Machine) (reply : Text) : Prop :=
  reply.length ≤ resolverReplyMaxChars ∧ count resolverBegin reply = 1 ∧
    count resolverEnd reply = 1 ∧ ∃ body e, between resolverBegin resolverEnd reply = some body ∧
      m.loads false body = .error e ∧ ∀ message, e ≠ .jsonDecodeError message

section
variable {m : Machine} {reply : Text} {sources : Sources} {task : TaskRecord}
  {readOnlyReview : Bool}

lemma refusing_proposalOf_iff (body : Text) : Refusing (proposalOf m body) ↔
    ¬ ∃ e, m.loads false body = .error e ∧ ∀ message, e ≠ .jsonDecodeError message := by
  unfold proposalOf
  split
  · next message hloads =>
    refine ⟨?_, fun _ => refusing_error _⟩
    rintro - ⟨e, he, hne⟩
    exact hne message (Except.error.inj (he.symm.trans hloads))
  · next e hne hloads =>
    constructor
    · intro h
      obtain ⟨message, hmessage⟩ := h (.raised e) rfl
      cases hmessage
    · intro h
      exact absurd ⟨e, hloads, hne⟩ h
  · next payload hloads =>
    constructor
    · rintro - ⟨e, he, -⟩
      cases he.symm.trans hloads
    · intro _
      refine (refusing_demand _ _).bind fun _ _ => ?_
      exact (refusing_demand _ _).bind fun _ _ => refusing_pure _
  · next payload _ hloads =>
    constructor
    · rintro - ⟨e, he, -⟩
      cases he.symm.trans hloads
    · exact fun _ => refusing_error _

lemma demand_false_bind {α : Type} (message : Text) (f : Unit → Except Failure α) :
    (demand false message >>= f) = .error (.envelopeResolverError message) := rfl

lemma failed_bind {α β : Type} (e : Failure) (f : α → Except Failure β) :
    (.error e >>= f) = .error e := rfl

lemma demand_true_bind {α : Type} (message : Text) (f : Unit → Except Failure α) :
    (demand true message >>= f) = f () := rfl

/-- The checks before the axes raise on an undecodable proposal only. -/
lemma refusing_resolverPayload_iff :
    Refusing (resolverPayload m reply) ↔ ¬ Undecodable m reply := by
  unfold resolverPayload Undecodable
  by_cases hlength : reply.length ≤ resolverReplyMaxChars
  swap
  · rw [decide_eq_false hlength, demand_false_bind]
    exact ⟨fun _ h => hlength h.1, fun _ => refusing_error _⟩
  rw [decide_eq_true hlength, demand_true_bind]
  by_cases hcount : count resolverBegin reply = 1 ∧ count resolverEnd reply = 1
  swap
  · have hfalse : (decide (count resolverBegin reply = 1) && decide (count resolverEnd reply = 1)) =
        false := by
      rw [Bool.and_eq_false_iff, decide_eq_false_iff_not, decide_eq_false_iff_not]
      exact not_and_or.mp hcount
    dsimp only
    rw [hfalse, demand_false_bind]
    exact ⟨fun _ h => hcount ⟨h.2.1, h.2.2.1⟩, fun _ => refusing_error _⟩
  dsimp only
  rw [decide_eq_true hcount.1, decide_eq_true hcount.2, Bool.and_self, demand_true_bind]
  cases hbody : between resolverBegin resolverEnd reply with
  | none =>
      refine ⟨?_, fun _ => refusing_throw _⟩
      rintro - ⟨-, -, -, body, e, hfound, -⟩
      cases hfound
  | some body =>
      dsimp only
      rw [refusing_proposalOf_iff]
      refine not_congr ⟨?_, ?_⟩
      · rintro ⟨e, hloads, hne⟩
        exact ⟨hlength, hcount.1, hcount.2, body, e, rfl, hloads, hne⟩
      · rintro ⟨-, -, -, body', e, hfound, hloads, hne⟩
        obtain rfl := Option.some.inj hfound
        exact ⟨e, hloads, hne⟩

/-- Where every path expands, so does the whole check of a reply. -/
lemma refusing_parse_iff
    (hpaths : ∀ raw, ∃ target, normaliseWriteTarget m raw task.worktree = .ok target) :
    Refusing (parseResolverReply m reply sources task readOnlyReview) ↔ ¬ Undecodable m reply := by
  rw [← refusing_resolverPayload_iff]
  constructor
  · intro h e he
    refine h e ?_
    rw [parseResolverReply, he, failed_bind]
  · intro h
    have haxes := @refusing_axesFrom m (requestOf m sources task readOnlyReview) hpaths
    refine h.bind fun payload _ => ?_
    refine (refusing_demand _ _).bind fun _ _ => ?_
    refine (haxes _ _).bind fun axes _ => ?_
    exact (refusing_proposedCandidates _ _).bind fun _ _ => refusing_pure _

/-! ## What it makes the receipt raise -/

/-- The receipt reads the proposal of a reply too deep for the reader. -/
def Overdeep (m : Machine) (reply : Text) : Prop :=
  reply.length ≤ resolverReplyMaxChars ∧
    ∃ body, framedBody reply = some body ∧ m.loads false body = .error .recursionError

/-- The reader raises nothing but a `ValueError` or a `RecursionError`. -/
lemma loads_error {body : Text} {e : Exc} (h : m.loads false body = .error e) :
    e.isValueError = true ∨ e = .recursionError := by
  unfold Runtime.loads at h
  split at h
  · cases h
  · obtain rfl := Except.error.inj h
    exact .inl rfl
  · obtain rfl := Except.error.inj h
    exact .inl rfl
  · exact .inr (Except.error.inj h).symm
  · obtain rfl := Except.error.inj h
    exact .inl rfl

lemma replyShape_raises_iff : (∃ e, replyShape m reply = .error e) ↔ Overdeep m reply := by
  unfold replyShape Overdeep
  by_cases hlength : reply.length ≤ resolverReplyMaxChars
  swap
  · rw [if_pos (not_le.mp hlength)]
    constructor
    · rintro ⟨e, he⟩
      cases he
    · exact fun h => absurd h.1 hlength
  rw [if_neg (not_lt.mpr hlength)]
  cases hbody : framedBody reply with
  | none => simp
  | some body =>
      have hbody' : (∃ body', some body = some body' ∧
          m.loads false body' = .error .recursionError) ↔
          m.loads false body = .error .recursionError := by simp
      rw [hbody', and_iff_right hlength]
      dsimp only
      cases hloads : m.loads false body with
      | ok payload => cases payload <;> simp
      | error e =>
          rcases loads_error hloads with hvalue | rfl
          · have hne : e ≠ .recursionError := by
              rintro rfl
              cases hvalue
            simp [hvalue, hne]
          · simp [Exc.isValueError]

/-- The receipt raises on a text without an encoding, and on a proposal that is too deep. -/
lemma resolverReceipt_raises_iff {status : Text} {duration : ℕ} :
    (∃ e, resolverReceipt m status duration readOnlyReview (some reply) = .error e) ↔
      ¬ Py.Encodable reply ∨ Overdeep m reply := by
  rw [← replyShape_raises_iff]
  unfold resolverReceipt resolverShape encoded encodeStrict
  by_cases hplain : Py.Encodable reply
  · simp only [hplain, not_true_eq_false, false_or]
    cases hshape : replyShape m reply with
    | error e => simp [bind, Except.bind]
    | ok shape => simp [bind, Except.bind, pure, Except.pure]
  · simp [hplain, bind, Except.bind]

lemma envelopeStopReason_returns {a : Answers} {axes : List (Text × EnvelopeAxis)}
    (hguidance : ∀ candidates, ∃ t, a.guidance candidates = .ok t) (candidates : List Text) :
    ∃ reason, envelopeStopReason a axes candidates = .ok reason := by
  obtain ⟨t, ht⟩ := hguidance candidates
  unfold envelopeStopReason
  rw [ht]
  split_ifs
  · exact ⟨_, rfl⟩
  · exact ⟨_, rfl⟩

/-- A resolution turns a refusal into a stop, and raises whatever else the checks raise. -/
lemma resolutionOf_raises_iff {a : Answers} {parsed : Parsed}
    (hguidance : ∀ candidates, ∃ t, a.guidance candidates = .ok t) :
    (∃ e, resolutionOf a parsed = .error e) ↔ ¬ Refusing parsed := by
  cases parsed with
  | error e =>
      cases e with
      | envelopeResolverError message =>
          refine ⟨?_, fun h => absurd (refusing_error message) h⟩
          rintro ⟨e, he⟩
          cases he
      | runtimeError message =>
          refine ⟨fun _ h => ?_, fun _ => ⟨_, rfl⟩⟩
          obtain ⟨message', h⟩ := h _ rfl
          cases h
      | raised exc =>
          refine ⟨fun _ h => ?_, fun _ => ⟨_, rfl⟩⟩
          obtain ⟨message, h⟩ := h _ rfl
          cases h
  | ok result =>
      obtain ⟨axes, candidates⟩ := result
      refine ⟨?_, fun h => absurd (refusing_ok _) h⟩
      rintro ⟨e, he⟩
      obtain ⟨reason, hreason⟩ := @envelopeStopReason_returns a axes hguidance candidates
      unfold resolutionOf at he
      dsimp only at he
      rw [hreason] at he
      split_ifs at he
      cases he

end

/-! ### A reply that is used -/

/-- Where nobody has a home, a path expands to itself. -/
lemma normaliseWriteTarget_ascii (raw : Text) :
    ∃ target, normaliseWriteTarget asciiMachine raw fixTask.worktree = .ok target := by
  have hexpand : ∀ t, PathText.expanduser asciiMachine.home t = .ok t := by
    intro t
    cases t with
    | nil => rfl
    | cons c t =>
        unfold PathText.expanduser
        dsimp only
        split_ifs
        · rfl
        · rfl
  unfold normaliseWriteTarget
  dsimp only
  split_ifs
  · exact ⟨_, rfl⟩
  · have hlanding : ∀ expanded, ∃ t, landing asciiMachine expanded fixTask.worktree = .ok t := by
      intro expanded
      unfold landing
      cases PathText.isAbs expanded with
      | true => exact ⟨_, rfl⟩
      | false => exact ⟨_, rfl⟩
    have hcandidate : ∀ t, ∃ t', escaping (PathText.expanduser asciiMachine.home t) = .ok t' := by
      intro t
      rw [hexpand]
      exact ⟨t, rfl⟩
    refine returns_bind (hcandidate _) fun expanded => ?_
    exact returns_bind (hlanding expanded) fun resolved => ⟨_, rfl⟩

/-- Every text a receipt may hold besides the digest of the reply. -/
def receiptWords : List Text :=
  (["schema_version", "status", "accepted", "unresolved", "duration_ms", "authority_policy",
    "tool-less-external-review-v1", "source-grounded-v1", "provider_reported_model",
    "provider_usage", "identity_unavailable_reason",
    "resolver text transport does not report model or usage", "raw_reply_retained",
    "reply_available", "reply_chars", "reply_sha256", "shape", "oversized",
    "invalid_framing_or_json_object", "missing_axes", "unexpected_axis_count", "axes", "object",
    "missing_keys", "unexpected_key_count"] : List Text) ++ resolverAxisKeys ++ envelopeAxes

/-- The value is made of texts from a list. -/
def MadeOf (words : List Text) (v : Value) : Prop := ∀ s ∈ v.strings, s ∈ words

section
variable {m : Machine} {words : List Text}

lemma madeOf_obj {items : List (Text × Value)}
    (h : ∀ p ∈ items, p.1 ∈ words ∧ MadeOf words p.2) : MadeOf words (.obj items) := by
  intro s hs
  obtain ⟨p, hp, hs⟩ := mem_stringsPairs.mp hs
  rcases hs with rfl | hs
  · exact (h p hp).1
  · exact (h p hp).2 s hs

lemma madeOf_texts {texts : List Text} (h : ∀ t ∈ texts, t ∈ words) :
    MadeOf words (.arr (texts.map .str)) := by
  intro s hs
  induction texts with
  | nil => exact absurd hs List.not_mem_nil
  | cons t texts ih =>
      obtain ⟨ht, htexts⟩ := List.forall_mem_cons.mp h
      rcases List.mem_append.mp hs with hs | hs
      · rw [List.mem_singleton.mp hs]
        exact ht
      · exact ih htexts hs

lemma madeOf_plain {v : Value} (h : v.strings = []) : MadeOf words v := by
  intro s hs
  rw [h] at hs
  exact absurd hs List.not_mem_nil

lemma madeOf_str {t : Text} (h : t ∈ words) : MadeOf words (.str t) := by
  intro s hs
  rw [List.mem_singleton.mp hs]
  exact h

/-- An item of a receipt, under one of the words. -/
def Kept (words : List Text) (p : Text × Value) : Prop := p.1 ∈ words ∧ MadeOf words p.2

lemma mem_receiptWords {t : Text} (h : t ∈ envelopeAxes ∨ t ∈ resolverAxisKeys) :
    t ∈ receiptWords := by
  rcases h with h | h
  · exact List.mem_append_right _ h
  · exact List.mem_append_left _ (List.mem_append_right _ h)

lemma axisShape_madeOf (entry : Value) : MadeOf receiptWords (axisShape entry) := by
  have hobject : ("object" : Text) ∈ receiptWords := by simp [receiptWords]
  have hmissing : ("missing_keys" : Text) ∈ receiptWords := by simp [receiptWords]
  have hcount : ("unexpected_key_count" : Text) ∈ receiptWords := by simp [receiptWords]
  cases entry with
  | obj items =>
      refine madeOf_obj fun p hp => ?_
      simp only [List.mem_cons, List.not_mem_nil, or_false] at hp
      rcases hp with rfl | rfl | rfl
      · exact ⟨hobject, madeOf_plain rfl⟩
      · refine ⟨hmissing, madeOf_texts fun t ht => mem_receiptWords (.inr ?_)⟩
        exact List.mem_of_mem_filter (Profile.mem_sorted.mp ht)
      · exact ⟨hcount, madeOf_plain rfl⟩
  | _ =>
      refine madeOf_obj fun p hp => ?_
      rw [List.mem_singleton.mp hp]
      exact ⟨hobject, madeOf_plain rfl⟩

lemma proposalShape_kept (payload : List (Text × Value)) :
    ∀ p ∈ proposalShape payload, Kept receiptWords p := by
  have hmissing : ("missing_axes" : Text) ∈ receiptWords := by simp [receiptWords]
  have hcount : ("unexpected_axis_count" : Text) ∈ receiptWords := by simp [receiptWords]
  have haxes : ("axes" : Text) ∈ receiptWords := by simp [receiptWords]
  intro p hp
  simp only [proposalShape, List.mem_cons, List.not_mem_nil, or_false] at hp
  rcases hp with rfl | rfl | rfl
  · refine ⟨hmissing, madeOf_texts fun t ht => mem_receiptWords (.inl ?_)⟩
    exact List.mem_of_mem_filter (Profile.mem_sorted.mp ht)
  · exact ⟨hcount, madeOf_plain rfl⟩
  · refine ⟨haxes, madeOf_obj fun q hq => ?_⟩
    obtain ⟨axis, haxis, hentry⟩ := List.mem_filterMap.mp hq
    split at hentry
    · cases hentry
    · obtain rfl := Option.some.inj hentry
      exact ⟨mem_receiptWords (.inl haxis), axisShape_madeOf _⟩

lemma replyShape_kept {reply : Text} {shape : List (Text × Value)}
    (h : replyShape m reply = .ok shape) : ∀ p ∈ shape, Kept receiptWords p := by
  have hshape : ("shape" : Text) ∈ receiptWords := by simp [receiptWords]
  have hlabel : ∀ label : Text, label ∈ receiptWords →
      ∀ p ∈ [(("shape" : Text), Value.str label)], Kept receiptWords p := by
    intro label hlabel p hp
    rw [List.mem_singleton.mp hp]
    exact ⟨hshape, madeOf_str hlabel⟩
  unfold replyShape at h
  dsimp only at h
  split_ifs at h
  · obtain rfl := Except.ok.inj h
    exact hlabel _ (by simp [receiptWords])
  split at h
  · obtain rfl := Except.ok.inj h
    exact hlabel _ (by simp [receiptWords])
  split at h
  · obtain rfl := Except.ok.inj h
    exact proposalShape_kept _
  · obtain rfl := Except.ok.inj h
    exact hlabel _ (by simp [receiptWords])
  · split_ifs at h
    obtain rfl := Except.ok.inj h
    exact hlabel _ (by simp [receiptWords])

lemma Kept.mono {words' : List Text} (hsub : words ⊆ words') {p : Text × Value}
    (h : Kept words p) : Kept words' p := ⟨hsub h.1, fun s hs => hsub (h.2 s hs)⟩

/-- The items of a receipt besides the shape of the reply. -/
lemma resolverReceipt_kept {parsed : Parsed} {duration : ℕ} {readOnlyReview : Bool}
    {reply : Option Text} {receipt : Value} (hsub : receiptWords ⊆ words)
    (hshape : ∀ shape, resolverShape m reply = .ok shape → ∀ p ∈ shape, Kept words p)
    (h : resolverReceipt m (statusOf parsed) duration readOnlyReview reply = .ok receipt) :
    MadeOf words receipt := by
  obtain ⟨shape, hreply, h⟩ := bind_eq_ok.mp h
  obtain rfl := Except.ok.inj h
  have hstatus : statusOf parsed ∈ receiptWords := by
    unfold statusOf
    split
    · split_ifs <;> simp [receiptWords]
    · simp [receiptWords]
  refine madeOf_obj fun p hp => ?_
  rcases List.mem_append.mp hp with hp | hp
  swap
  · exact hshape shape hreply p hp
  have hkept : Kept receiptWords p := by
    have hkey : ∀ key ∈ (["schema_version", "status", "duration_ms", "authority_policy",
        "provider_reported_model", "provider_usage", "identity_unavailable_reason",
        "raw_reply_retained"] : List Text), key ∈ receiptWords := by simp [receiptWords]
    refine ⟨hkey p.1 ?_, ?_⟩
    · exact List.mem_map_of_mem (f := Prod.fst) hp
    · simp only [List.mem_cons, List.not_mem_nil, or_false] at hp
      rcases hp with rfl | rfl | rfl | rfl | rfl | rfl | rfl | rfl
      · exact madeOf_plain rfl
      · exact madeOf_str hstatus
      · exact madeOf_plain rfl
      · cases readOnlyReview <;> exact madeOf_str (by simp [receiptWords])
      · exact madeOf_plain rfl
      · exact madeOf_plain rfl
      · exact madeOf_str (by simp [receiptWords])
      · exact madeOf_plain rfl
  exact hkept.mono hsub

/-- Whatever the reply, the receipt of its resolution holds no text but the receipt's own words and
the digest of the reply. -/
theorem resolverReceipt_contentFree {parsed : Parsed} {duration : ℕ} {readOnlyReview : Bool}
    {reply : Option Text} {receipt : Value}
    (h : resolverReceipt m (statusOf parsed) duration readOnlyReview reply = .ok receipt) :
    ∀ s ∈ receipt.strings, s ∈ receiptWords ∨
      ∃ t bytes, reply = some t ∧ encoded t = .ok bytes ∧ s = m.sha256 bytes := by
  cases reply with
  | none =>
      have hmade : MadeOf receiptWords receipt := by
        refine resolverReceipt_kept (List.Subset.refl _) (fun shape hshape p hp => ?_) h
        obtain rfl := Except.ok.inj hshape
        rw [List.mem_singleton.mp hp]
        exact ⟨by simp [receiptWords], madeOf_plain rfl⟩
      exact fun s hs => .inl (hmade s hs)
  | some reply =>
      cases hbytes : encoded reply with
      | error e =>
          rw [resolverReceipt, resolverShape, hbytes] at h
          cases h
      | ok bytes =>
          have hsub : receiptWords ⊆ receiptWords ++ [m.sha256 bytes] :=
            List.subset_append_left _ _
          have hmade : MadeOf (receiptWords ++ [m.sha256 bytes]) receipt := by
            refine resolverReceipt_kept hsub (fun shape hshape p hp => ?_) h
            rw [resolverShape, hbytes, returned_bind] at hshape
            obtain ⟨found, hfound, hshape⟩ := bind_eq_ok.mp hshape
            obtain rfl := Except.ok.inj hshape
            have hkeys : ("reply_available" : Text) ∈ receiptWords ∧
                ("reply_chars" : Text) ∈ receiptWords ∧ ("reply_sha256" : Text) ∈ receiptWords := by
              simp [receiptWords]
            rcases List.mem_append.mp hp with hp | hp
            · simp only [List.mem_cons, List.not_mem_nil, or_false] at hp
              rcases hp with rfl | rfl | rfl
              · exact ⟨hsub hkeys.1, madeOf_plain rfl⟩
              · exact ⟨hsub hkeys.2.1, madeOf_plain rfl⟩
              · exact ⟨hsub hkeys.2.2, madeOf_str
                  (List.mem_append_right _ (List.mem_singleton_self _))⟩
            · exact (replyShape_kept hfound p hp).mono hsub
          intro s hs
          rcases List.mem_append.mp (hmade s hs) with hword | hdigest
          · exact .inl hword
          · exact .inr ⟨reply, bytes, rfl, hbytes, List.mem_singleton.mp hdigest⟩

end

theorem resolverReceipt_contentFree_fix : ∃ parsed receipt,
    resolverReceipt asciiMachine (statusOf parsed) 0 false (some fixReply) = .ok receipt ∧
    ∀ s ∈ receipt.strings, s ∈ receiptWords ∨ ∃ t bytes, some fixReply = some t ∧
      encoded t = .ok bytes ∧ s = asciiMachine.sha256 bytes := by
  obtain ⟨resolution, hresolution⟩ := resolveEnvelope_fix
  obtain ⟨receipt, hreceipt, -⟩ := step_eq_ok.mp hresolution
  have hreceipt := escaping_eq_ok.mp hreceipt
  exact ⟨_, receipt, hreceipt, resolverReceipt_contentFree hreceipt⟩

end Intake

end AgentOrch
