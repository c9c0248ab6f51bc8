import AgentOrch.Construction.Execution
import AgentOrch.Construction.Snapshot

/-!
# Execution plans

A stored plan is accepted exactly when its dictionary holds, key by key, what the plan writes, the
plan is one the profile resolves to, and its digest is the one expected.  Restoring runs the
resolution again on what the stages were resolved to, and puts back what had been requested.
-/

namespace AgentOrch.Execution

open Py Json

/-! ## Shapes -/

section
variable {rt : Runtime} {value v : Value} {required optional : List Text} {label t : Text}
  {items : List (Text × Value)}

lemma keysOf_eq_ok : keysOf rt value required optional label = .ok items ↔
    value = .obj items ∧ (∀ k ∈ required, k ∈ dictKeys items) ∧
      ∀ k ∈ dictKeys items, k ∈ required ∨ k ∈ optional := by
  have hsorted : ∀ ts : List Text, sorted ts = [] ↔ ts = [] := by
    intro ts
    constructor
    · exact eq_nil_of_sorted
    · rintro rfl
      rfl
  cases value with
  | obj found =>
      simp only [keysOf, bind_eq_ok, require_eq_ok, Bool.and_eq_true, decide_eq_true_eq, hsorted,
        List.filter_eq_nil_iff, pure, Except.pure, Except.ok.injEq, Value.obj.injEq]
      constructor
      · rintro ⟨-, ⟨hmissing, hunknown⟩, rfl⟩
        refine ⟨rfl, ?_, ?_⟩
        · intro k hk
          exact by_contra fun hnot => hmissing k hk hnot
        · intro k hk
          by_contra hnot
          rw [not_or] at hnot
          exact hunknown k hk hnot
      · rintro ⟨rfl, hrequired, honly⟩
        refine ⟨(), ⟨fun k hk hnot => hnot (hrequired k hk), ?_⟩, rfl⟩
        rintro k hk ⟨hrequired', hoptional⟩
        exact (honly k hk).elim hrequired' hoptional
  | _ => simp [keysOf]

lemma token_eq_ok : token value label = .ok t ↔ value = .str t ∧ isToken t = true := by
  cases value with
  | str s =>
      unfold token
      by_cases hs : isToken s = true
      · simp only [hs, if_true, Except.ok.injEq, Value.str.injEq]
        constructor
        · rintro rfl
          exact ⟨rfl, hs⟩
        · exact fun h => h.1
      · simp only [hs, if_false, Bool.false_eq_true, reduceCtorEq, Value.str.injEq, false_iff]
        rintro ⟨rfl, h⟩
        exact hs h
  | _ => simp [token]

lemma textOf_eq_some : textOf value = some t ↔ value = .str t := by
  cases value <;> simp [textOf]

lemma eqv_str : v.eqv (.str t) = true ↔ v = .str t := by
  cases v <;> simp [Value.eqv]

@[simp] lemma textOf_optionValue (o : Option Text) : textOf (optionValue o) = o := by
  cases o <;> rfl

lemma optionValue_injective : Function.Injective optionValue :=
  Function.LeftInverse.injective textOf_optionValue

lemma getValue_eq (h : dictGet t items = some v) : getValue t items = v := by
  rw [getValue, h, Option.getD_some]

/-- A key that is there holds what is read under it. -/
lemma dictGet_of_mem_keys (h : t ∈ dictKeys items) : dictGet t items = some (getValue t items) := by
  obtain ⟨w, hw⟩ := Option.isSome_iff_exists.mp (dictGet_isSome.mpr h)
  rw [getValue_eq hw, hw]

lemma dictGet_eq_none (h : t ∉ dictKeys items) : dictGet t items = none := by
  rw [← Option.not_isSome_iff_eq_none, dictGet_isSome]
  exact h

end

/-! ## What resolution makes sure of -/

/-- A choice the policy and the profile allow for a stage. -/
structure ChoiceSound (profile : Profile) (name : Text) (c : ExecutionChoice) : Prop where
  provider : dictGet c.role executionV1.roles = some c.provider
  owner : ∃ s, profile.stage name = .ok s ∧ s.owner.map Owner.text = some c.provider
  model : isToken c.model = true
  effort : c.effort ∈ efforts
  locked : (dictGet c.role executionV1.modelLocks).all (c.model = ·) = true
  requestedModel : ∀ m ∈ c.requestedModel, m = c.model
  requestedEffort : ∀ e ∈ c.requestedEffort, e = c.effort

/-- A plan a profile can resolve to. -/
structure Resolved (profile : Profile) (p : ExecutionPlan) : Prop where
  work : isToken p.logicalWorkId = true ∧ isIdentity p.logicalWorkId = true
  series : isToken p.specSeriesId = true ∧ isIdentity p.specSeriesId = true
  nodup : (dictKeys p.stages).Nodup
  covers : ∀ name, name ∈ dictKeys p.stages ↔ name ∈ workingStages profile
  choices : ∀ s ∈ p.stages, ChoiceSound profile s.1 s.2
  defaults : restoredDefaults (usesDefault p.stages) (optionValue p.defaultsDigest) =
    .ok p.defaultsDigest
  policy : p.policyVersion = none

/-- What the request for one stage says of its choice. -/
structure Requests (defaults : Defaults) (items : List (Text × Value)) (c : ExecutionChoice) :
    Prop where
  required : ∀ k ∈ (["role", "provider"] : List Text), k ∈ dictKeys items
  only : ∀ k ∈ dictKeys items,
    k ∈ (["role", "provider"] : List Text) ∨ k ∈ (["model", "effort"] : List Text)
  role : getValue "role" items = .str c.role
  provider : getValue "provider" items = .str c.provider
  model : chosen "model" items ((dictGet c.role defaults).getD []) = .str c.model
  effort : chosen "effort" items ((dictGet c.role defaults).getD []) = .str c.effort
  requestedModel : c.requestedModel = textOf (getValue "model" items)
  requestedEffort : c.requestedEffort = textOf (getValue "effort" items)

section
variable {rt : Runtime} {profile : Profile} {defaults : Defaults} {name : Text} {config : Value}
  {c : ExecutionChoice} {items : List (Text × Value)}

/-- What was asked for is what was chosen. -/
lemma requested_eq {field t : Text} {fallback : List (Text × Text)}
    (h : chosen field items fallback = .str t) : ∀ m ∈ textOf (getValue field items), m = t := by
  intro m hm
  have hvalue := textOf_eq_some.mp hm
  unfold chosen at h
  unfold getValue at hvalue
  cases hget : dictGet field items with
  | none =>
      rw [hget] at hvalue
      cases hvalue
  | some v =>
      rw [hget, Option.getD_some] at h hvalue
      rw [h] at hvalue
      exact (Value.str.inj hvalue).symm

lemma resolveStage_eq_ok : resolveStage rt executionV1 profile defaults name config = .ok c ↔
    ∃ items, config = .obj items ∧ Requests defaults items c ∧ ChoiceSound profile name c := by
  unfold resolveStage
  simp only [bind_eq_ok]
  constructor
  · rintro ⟨items, hkeys, h⟩
    obtain ⟨rfl, hrequired, honly⟩ := keysOf_eq_ok.mp hkeys
    refine ⟨items, rfl, ?_⟩
    cases hrole : textOf (getValue "role" items) with
    | none =>
        rw [hrole] at h
        cases h
    | some role =>
        rw [hrole] at h
        dsimp only at h
        cases hpair : dictGet role executionV1.roles with
        | none =>
            rw [hpair] at h
            cases h
        | some provider =>
            rw [hpair] at h
            dsimp only at h
            obtain ⟨_, hprovider, h⟩ := bind_eq_ok.mp h
            obtain ⟨stage, hstage, h⟩ := bind_eq_ok.mp h
            obtain ⟨_, howner, h⟩ := bind_eq_ok.mp h
            obtain ⟨model, hmodel, h⟩ := bind_eq_ok.mp h
            obtain ⟨hmodel, htoken⟩ := token_eq_ok.mp hmodel
            cases heffort : textOf (chosen "effort" items ((dictGet role defaults).getD [])) with
            | none =>
                rw [heffort] at h
                cases h
            | some effort =>
                rw [heffort] at h
                dsimp only at h
                obtain ⟨_, hknown, h⟩ := bind_eq_ok.mp h
                obtain ⟨_, hlocked, h⟩ := bind_eq_ok.mp h
                obtain rfl := Except.ok.inj h
                rw [textOf_eq_some] at hrole heffort
                rw [require_eq_ok] at hprovider howner hknown hlocked
                refine ⟨⟨hrequired, honly, hrole, eqv_str.mp hprovider, hmodel, heffort, rfl, rfl⟩,
                  hpair, ⟨stage, hstage, of_decide_eq_true howner⟩, htoken,
                  of_decide_eq_true hknown, hlocked, requested_eq hmodel, requested_eq heffort⟩
  · rintro ⟨items, rfl, hasks, hsound⟩
    obtain ⟨stage, hstage, howner⟩ := hsound.owner
    refine ⟨items, keysOf_eq_ok.mpr ⟨rfl, hasks.required, hasks.only⟩, ?_⟩
    have hmodel : ∀ label, token (.str c.model) label = .ok c.model :=
      fun label => token_eq_ok.mpr ⟨rfl, hsound.model⟩
    have hrequestedModel := hasks.requestedModel
    have hrequestedEffort := hasks.requestedEffort
    have htext : ∀ t, textOf (.str t) = some t := fun _ => rfl
    simp only [hasks.role, hasks.provider, htext, hsound.provider, eqv_str.mpr, hstage, howner,
      hasks.model, hmodel, hasks.effort, hsound.effort, hsound.locked, decide_true, require,
      if_true, bind, Except.bind, pure, Except.pure, ← hrequestedModel, ← hrequestedEffort]

end

/-! ## The loop over the stages -/

section
variable {rt : Runtime} {profile : Profile} {defaults : Defaults}

/-- The loop gives every stage its own choice, in order. -/
lemma resolveStages_eq_ok {rest : List (Text × Value)} :
    ∀ {resolved out : List (Text × ExecutionChoice)},
      (dictKeys resolved ++ dictKeys rest).Nodup →
      (resolveStages rt executionV1 profile defaults resolved rest = .ok out ↔
        ∃ choices, out = resolved ++ choices ∧ List.Forall₂ (fun s c => s.1 = c.1 ∧
          resolveStage rt executionV1 profile defaults s.1 s.2 = .ok c.2) rest choices) := by
  induction rest with
  | nil =>
      intro resolved out _
      simp only [resolveStages, Except.ok.injEq, List.forall₂_nil_left_iff]
      constructor
      · rintro rfl
        exact ⟨[], by simp, rfl⟩
      · rintro ⟨_, rfl, rfl⟩
        simp
  | cons s rest ih =>
      obtain ⟨name, config⟩ := s
      intro resolved out hnodup
      have hfresh : name ∉ dictKeys resolved := by
        intro hmem
        have hdisjoint := (List.nodup_append.mp hnodup).2.2
        exact hdisjoint name hmem name List.mem_cons_self rfl
      have hnext : ∀ c, (dictKeys (resolved ++ [(name, c)]) ++ dictKeys rest).Nodup := by
        intro c
        simpa [dictKeys, List.append_assoc] using hnodup
      simp only [resolveStages, bind_eq_ok]
      constructor
      · rintro ⟨c, hc, h⟩
        rw [dictSet_of_notMem hfresh, ih (hnext c)] at h
        obtain ⟨choices, rfl, hchoices⟩ := h
        exact ⟨(name, c) :: choices, by simp, .cons ⟨rfl, hc⟩ hchoices⟩
      · rintro ⟨choices, rfl, hchoices⟩
        cases hchoices with
        | @cons _ d _ choices hd hrest =>
            obtain ⟨d1, d2⟩ := d
            obtain ⟨rfl, hd⟩ := hd
            refine ⟨d2, hd, ?_⟩
            rw [dictSet_of_notMem hfresh, ih (hnext d2)]
            exact ⟨choices, by simp, hrest⟩

lemma resolveStages_nil {rest : List (Text × Value)} {out : List (Text × ExecutionChoice)}
    (hnodup : (dictKeys rest).Nodup) :
    resolveStages rt executionV1 profile defaults [] rest = .ok out ↔
      List.Forall₂ (fun s c => s.1 = c.1 ∧
        resolveStage rt executionV1 profile defaults s.1 s.2 = .ok c.2) rest out := by
  have hnodup' : (dictKeys ([] : List (Text × ExecutionChoice)) ++ dictKeys rest).Nodup := hnodup
  rw [resolveStages_eq_ok hnodup']
  constructor
  · rintro ⟨_, rfl, h⟩
    exact h
  · exact fun h => ⟨out, rfl, h⟩

end

/-! ## The request -/

/-- What a request says of the plan it resolves to. -/
structure ResolvesTo (rt : Runtime) (pf : Platform) (profile : Profile) (defaults : Defaults)
    (items : List (Text × Value)) (p : ExecutionPlan) : Prop where
  required : ∀ k ∈ (["schema_version", "logical_work_id", "spec_series_id", "stages"] : List Text),
    k ∈ dictKeys items
  only : ∀ k ∈ dictKeys items,
    k ∈ (["schema_version", "logical_work_id", "spec_series_id", "stages"] : List Text) ∨
      k ∈ (["policy_version"] : List Text)
  policy : ∀ v ∈ dictGet "policy_version" items, v = .str defaultPolicy
  version : getValue "schema_version" items = .int schemaVersion
  work : getValue "logical_work_id" items = .str p.logicalWorkId
  series : getValue "spec_series_id" items = .str p.specSeriesId
  works : isToken p.logicalWorkId = true ∧ isIdentity p.logicalWorkId = true
  serieses : isToken p.specSeriesId = true ∧ isIdentity p.specSeriesId = true
  stages : ∃ stages, getValue "stages" items = .obj stages ∧
    (∀ k ∈ workingStages profile, k ∈ dictKeys stages) ∧
    (∀ k ∈ dictKeys stages, k ∈ workingStages profile) ∧
    resolveStages rt executionV1 profile defaults [] stages = .ok p.stages
  digest : if usesDefault p.stages then
      ∃ bytes, canonicalJson rt (defaultsValue defaults) = .ok bytes ∧
        p.defaultsDigest = some (pf.sha256 bytes)
    else p.defaultsDigest = none
  policyVersion : p.policyVersion = none

section
variable {rt : Runtime} {pf : Platform} {profile : Profile} {defaults : Defaults}
  {p : ExecutionPlan} {request value : Value}

/-- There is one policy. -/
lemma policyOf_eq_ok {version : Text} {policy : Policy} :
    policyOf rt value = .ok (version, policy) ↔
      value = .str defaultPolicy ∧ version = defaultPolicy ∧ policy = executionV1 := by
  cases value with
  | str t =>
      by_cases ht : t = defaultPolicy
      · subst ht
        have hget : dictGet defaultPolicy policies = some executionV1 := rfl
        simp only [policyOf, hget, Except.ok.injEq, Prod.mk.injEq, true_and]
        exact ⟨fun h => ⟨h.1.symm, h.2.symm⟩, fun h => ⟨h.1.symm, h.2.symm⟩⟩
      · have hget : dictGet t policies = none := by
          rw [policies, dictGet_cons, if_neg (by simpa using Ne.symm ht)]
          rfl
        simp [policyOf, hget, ht]
  | _ => simp [policyOf]

lemma resolveRequest_eq_ok : resolveRequest pf request profile defaults = .ok p ↔
    ∃ items, request = .obj items ∧ ResolvesTo pf.toRuntime pf profile defaults items p := by
  unfold resolveRequest
  simp only [bind_eq_ok]
  constructor
  · rintro ⟨items, hkeys, ⟨version, policy⟩, hpolicy, _, hversion, work, hwork, series, hseries, _,
      hidentity, stages, hstages, resolved, hresolved, h⟩
    obtain ⟨rfl, hrequired, honly⟩ := keysOf_eq_ok.mp hkeys
    obtain ⟨hnamed, rfl, rfl⟩ := policyOf_eq_ok.mp hpolicy
    obtain ⟨hwork, hworks⟩ := token_eq_ok.mp hwork
    obtain ⟨hseries, hserieses⟩ := token_eq_ok.mp hseries
    obtain ⟨hstages, hcovers, hcovered⟩ := keysOf_eq_ok.mp hstages
    rw [require_eq_ok, Bool.and_eq_true] at hidentity
    rw [require_eq_ok] at hversion
    have hschema : getValue "schema_version" items = .int schemaVersion := by
      cases hvalue : getValue "schema_version" items with
      | int n =>
          rw [hvalue] at hversion
          rw [of_decide_eq_true hversion]
      | _ =>
          rw [hvalue] at hversion
          cases hversion
    have hdefault : ∀ v ∈ dictGet "policy_version" items, v = .str defaultPolicy := by
      intro v hv
      rw [Option.mem_def] at hv
      rw [hv, Option.getD_some] at hnamed
      exact hnamed
    refine ⟨items, rfl, ?_⟩
    by_cases hused : usesDefault resolved = true
    · rw [if_pos hused] at h
      obtain ⟨bytes, hbytes, h⟩ := bind_eq_ok.mp h
      obtain rfl := Except.ok.inj h
      exact ⟨hrequired, honly, hdefault, hschema, hwork, hseries, ⟨hworks, hidentity.1⟩,
        ⟨hserieses, hidentity.2⟩,
        ⟨stages, hstages, hcovers, fun k hk => (hcovered k hk).resolve_right List.not_mem_nil,
          hresolved⟩, by rw [if_pos hused]; exact ⟨bytes, hbytes, rfl⟩, rfl⟩
    · rw [if_neg hused] at h
      obtain rfl := Except.ok.inj h
      exact ⟨hrequired, honly, hdefault, hschema, hwork, hseries, ⟨hworks, hidentity.1⟩,
        ⟨hserieses, hidentity.2⟩,
        ⟨stages, hstages, hcovers, fun k hk => (hcovered k hk).resolve_right List.not_mem_nil,
          hresolved⟩, by rw [if_neg hused], rfl⟩
  · rintro ⟨items, rfl, h⟩
    obtain ⟨stages, hstages, hcovers, hcovered, hresolved⟩ := h.stages
    have hpolicy : (dictGet "policy_version" items).getD (.str defaultPolicy) =
        .str defaultPolicy := by
      cases hget : dictGet "policy_version" items with
      | none => rfl
      | some v => exact h.policy v hget
    refine ⟨items, keysOf_eq_ok.mpr ⟨rfl, h.required, h.only⟩, (defaultPolicy, executionV1),
      policyOf_eq_ok.mpr ⟨hpolicy, rfl, rfl⟩, (), ?_, p.logicalWorkId,
      token_eq_ok.mpr ⟨h.work, h.works.1⟩, p.specSeriesId,
      token_eq_ok.mpr ⟨h.series, h.serieses.1⟩, (), ?_, stages,
      keysOf_eq_ok.mpr ⟨hstages, hcovers, fun k hk => .inl (hcovered k hk)⟩, p.stages, hresolved,
      ?_⟩
    · rw [require_eq_ok, h.version]
      exact decide_eq_true rfl
    · rw [require_eq_ok, h.works.2, h.serieses.2]
      rfl
    · have hdigest := h.digest
      obtain ⟨work, series, found, digest, policyVersion⟩ := p
      obtain rfl : policyVersion = none := h.policyVersion
      by_cases hused : usesDefault found = true
      · rw [if_pos hused] at hdigest ⊢
        obtain ⟨bytes, hbytes, rfl⟩ := hdigest
        rw [hbytes]
        rfl
      · rw [if_neg hused] at hdigest ⊢
        obtain rfl := hdigest
        rfl

end

/-! ## A plan -/

/-- A hash that is known at one place only. -/
def zeroDigest : Text := List.replicate 64 0x30

lemma isHexDigest_zeroDigest : isHexDigest zeroDigest = true := by decide

/-- The default interpreter beside it. -/
def zeroPlatform : Platform := Kanban.hashingPlatform zeroDigest isHexDigest_zeroDigest

/-- The draft asks for its model, the review leaves its effort to the defaults of its role. -/
def draftRequest : Value :=
  .obj [("schema_version", .int 1), ("logical_work_id", .str "work-1"),
    ("spec_series_id", .str "series-1"),
    ("stages", .obj [
      ("draft", .obj [("role", .str "reviewer"), ("provider", .str "claude"),
        ("model", .str "claude-fable-5-1"), ("effort", .str "high")]),
      ("review", .obj [("role", .str "executor"), ("provider", .str "codex"),
        ("model", .str "codex-1")])])]

def draftDefaults : Defaults := [("executor", [("model", "codex-0"), ("effort", "medium")])]

def draftPlan : ExecutionPlan where
  logicalWorkId := "work-1"
  specSeriesId := "series-1"
  stages := [
    ("draft", ⟨"reviewer", "claude", some ("claude-fable-5-1" : Text), some ("high" : Text),
      "claude-fable-5-1", "high"⟩),
    ("review", ⟨"executor", "codex", some ("codex-1" : Text), none, "codex-1", "medium"⟩)]
  defaultsDigest := some zeroDigest
  policyVersion := none

lemma resolveRequest_draft :
    resolveRequest zeroPlatform draftRequest draftReviewProfile draftDefaults = .ok draftPlan := by
  decide

lemma digest_draft : draftPlan.digest zeroPlatform = .ok zeroDigest := by decide +kernel

end AgentOrch.Execution
