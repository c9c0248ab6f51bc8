import AgentOrch.Properties.ExecutionPlans

/-!
# Restored plans

`restore_plan` accepts a dictionary exactly when it stores a plan the profile resolves to and the
digest of that plan is the expected one.
-/

namespace AgentOrch.Execution

open Py Json

/-! ## Lists in step -/

section
variable {α β γ : Type} {R : α → β → Prop} {S : β → γ → Prop} {as : List α} {bs : List β}
  {cs : List γ}

/-- Two lists in step with a third are in step with one another. -/
lemma forall₂_comp (h : List.Forall₂ R as bs) (h' : List.Forall₂ S bs cs) :
    List.Forall₂ (fun a c => ∃ b, R a b ∧ S b c) as cs := by
  induction h generalizing cs with
  | nil =>
      cases h'
      exact .nil
  | cons hab _ ih =>
      cases h' with
      | cons hbc hrest => exact .cons ⟨_, hab, hbc⟩ (ih hrest)

/-- And the third is there when every element has one in between. -/
lemma exists_forall₂ (h : List.Forall₂ (fun a c => ∃ b, R a b ∧ S b c) as cs) :
    ∃ bs, List.Forall₂ R as bs ∧ List.Forall₂ S bs cs := by
  induction h with
  | nil => exact ⟨[], .nil, .nil⟩
  | cons hac _ ih =>
      obtain ⟨b, hab, hbc⟩ := hac
      obtain ⟨bs, hR, hS⟩ := ih
      exact ⟨b :: bs, .cons hab hR, .cons hbc hS⟩

/-- What is in step with an element may use that the element is there. -/
lemma forall₂_mem (h : List.Forall₂ R as bs) :
    List.Forall₂ (fun a b => a ∈ as ∧ b ∈ bs ∧ R a b) as bs := by
  rw [List.forall₂_iff_zip] at h ⊢
  refine ⟨h.1, fun hab => ?_⟩
  obtain ⟨ha, hb⟩ := List.of_mem_zip hab
  exact ⟨ha, hb, h.2 hab⟩

lemma forall₂_right (h : List.Forall₂ R as bs) : ∀ b ∈ bs, ∃ a ∈ as, R a b := by
  induction h with
  | nil => exact fun _ hb => absurd hb List.not_mem_nil
  | cons hab _ ih =>
      rw [List.forall_mem_cons]
      refine ⟨⟨_, List.mem_cons_self, hab⟩, fun b hb => ?_⟩
      obtain ⟨a, ha, hR⟩ := ih b hb
      exact ⟨a, List.mem_cons_of_mem _ ha, hR⟩

lemma dictKeys_of_forall₂ {as : List (Text × α)} {bs : List (Text × β)}
    (h : List.Forall₂ (fun a b => a.1 = b.1) as bs) : dictKeys as = dictKeys bs := by
  induction h with
  | nil => rfl
  | cons hab _ ih => exact congrArg₂ _ hab ih

end

/-! ## One stage -/

/-- The request a stored stage is resolved by. -/
def stageRequest (item : List (Text × Value)) : Value :=
  .obj ((["role", "provider", "model", "effort"] : List Text).map fun key =>
    (key, getValue key item))

/-- A stored stage that passes, and its request. -/
def StoredStage (value request : Value) : Prop :=
  ∃ item, value = .obj item ∧ (∀ k ∈ storedChoiceKeys, k ∈ dictKeys item) ∧
    (∀ k ∈ dictKeys item, k ∈ storedChoiceKeys) ∧ provenanceAgrees item "model" = true ∧
    provenanceAgrees item "effort" = true ∧ request = stageRequest item

/-- The items hold, key by key, what the choice writes. -/
def StoresChoice (item : List (Text × Value)) (c : ExecutionChoice) : Prop :=
  ∀ key, dictGet key item = dictGet key c.toDict

/-- A resolved choice with the requests an item states. -/
def withRequests (item : List (Text × Value)) (c : ExecutionChoice) : ExecutionChoice :=
  { c with
    requestedModel := textOf (getValue "requested_model" item)
    requestedEffort := textOf (getValue "requested_effort" item) }

/-- A choice that asks for what it was resolved to. -/
def ExecutionChoice.explicit (c : ExecutionChoice) : ExecutionChoice :=
  { c with requestedModel := some c.model, requestedEffort := some c.effort }

section
variable {rt : Runtime} {profile : Profile} {name field : Text} {item : List (Text × Value)}
  {c : ExecutionChoice} {value t : Value}

/-- The stored provenance of a field agrees when it is that of some request. -/
lemma provenanceAgrees_iff {m : Text} (h : getValue field item = .str m) :
    provenanceAgrees item field = true ↔ ∃ o, getValue ("requested_" ++ field) item = optionValue o ∧
      (∀ t ∈ o, t = m) ∧ getValue (field ++ "_source") item = .str (source o) := by
  unfold provenanceAgrees
  simp only [Bool.and_eq_true, eqv_str]
  generalize getValue ("requested_" ++ field) item = requested
  constructor
  · rintro ⟨hsource, hagrees⟩
    cases requested with
    | null => exact ⟨none, rfl, by simp, hsource⟩
    | str s =>
        rw [h] at hagrees
        obtain rfl : s = m := by simpa [Value.eqv] using hagrees
        exact ⟨some s, rfl, by simp, hsource⟩
    | _ =>
        rw [h] at hagrees
        simp [Value.eqv] at hagrees
  · rintro ⟨o, rfl, hm, hsource⟩
    cases o with
    | none => exact ⟨hsource, rfl⟩
    | some s =>
        obtain rfl := hm s rfl
        refine ⟨hsource, ?_⟩
        rw [h]
        exact eqv_str.mpr rfl

lemma dictKeys_toDict (c : ExecutionChoice) : dictKeys c.toDict = storedChoiceKeys := rfl

/-- An item stores a choice when it has the keys, and what is read under them is the choice's. -/
lemma storesChoice_iff : StoresChoice item c ↔
    (∀ k ∈ storedChoiceKeys, k ∈ dictKeys item) ∧ (∀ k ∈ dictKeys item, k ∈ storedChoiceKeys) ∧
      ∀ k ∈ storedChoiceKeys, getValue k item = getValue k c.toDict := by
  constructor
  · intro h
    have hkeys : ∀ k, k ∈ dictKeys item ↔ k ∈ storedChoiceKeys := by
      intro k
      rw [← dictGet_isSome, h, dictGet_isSome, dictKeys_toDict]
    exact ⟨fun k => (hkeys k).mpr, fun k => (hkeys k).mp, fun k _ => by rw [getValue, h]; rfl⟩
  · rintro ⟨hrequired, honly, hvalues⟩ key
    by_cases hkey : key ∈ storedChoiceKeys
    · rw [dictGet_of_mem_keys (hrequired key hkey), hvalues key hkey]
      exact (dictGet_of_mem_keys (dictKeys_toDict c ▸ hkey)).symm
    · rw [dictGet_eq_none fun h => hkey (honly key h), dictGet_eq_none]
      exact hkey

/-- What is read of a stored choice. -/
lemma StoresChoice.getValue (h : StoresChoice item c) (key : Text) :
    getValue key item = Json.getValue key c.toDict := by
  rw [Json.getValue, h]
  rfl

/-- The request of a stored stage resolves when it asks for a sound choice. -/
lemma resolveStage_stageRequest :
    resolveStage rt executionV1 profile [] name (stageRequest item) = .ok c ↔
      getValue "role" item = .str c.role ∧ getValue "provider" item = .str c.provider ∧
      getValue "model" item = .str c.model ∧ getValue "effort" item = .str c.effort ∧
      c.requestedModel = some c.model ∧ c.requestedEffort = some c.effort ∧
      ChoiceSound profile name c := by
  rw [resolveStage_eq_ok]
  constructor
  · rintro ⟨items, heq, hasks, hsound⟩
    obtain rfl := Value.obj.inj heq
    have hmodel : getValue "model" item = .str c.model := hasks.model
    have heffort : getValue "effort" item = .str c.effort := hasks.effort
    have hrequestedModel : c.requestedModel = textOf (getValue "model" item) :=
      hasks.requestedModel
    have hrequestedEffort : c.requestedEffort = textOf (getValue "effort" item) :=
      hasks.requestedEffort
    rw [hmodel] at hrequestedModel
    rw [heffort] at hrequestedEffort
    exact ⟨hasks.role, hasks.provider, hmodel, heffort, hrequestedModel, hrequestedEffort, hsound⟩
  · rintro ⟨hrole, hprovider, hmodel, heffort, hrequestedModel, hrequestedEffort, hsound⟩
    have hkeys : dictKeys ((["role", "provider", "model", "effort"] : List Text).map fun key =>
        (key, getValue key item)) = ["role", "provider", "model", "effort"] := rfl
    refine ⟨_, rfl, ⟨by rw [hkeys]; decide, by rw [hkeys]; decide, hrole, hprovider, hmodel,
      heffort, ?_, ?_⟩, hsound⟩
    · show _ = textOf (getValue "model" item)
      rw [hmodel]
      exact hrequestedModel
    · show _ = textOf (getValue "effort" item)
      rw [heffort]
      exact hrequestedEffort

lemma ChoiceSound.of_requests {d : ExecutionChoice} (h : ChoiceSound profile name c)
    (hrole : d.role = c.role) (hprovider : d.provider = c.provider) (hmodel : d.model = c.model)
    (heffort : d.effort = c.effort) (hm : ∀ m ∈ d.requestedModel, m = d.model)
    (he : ∀ e ∈ d.requestedEffort, e = d.effort) : ChoiceSound profile name d := by
  obtain ⟨role, provider, requestedModel, requestedEffort, model, effort⟩ := d
  dsimp only at hrole hprovider hmodel heffort
  subst hrole hprovider hmodel heffort
  exact ⟨h.provider, h.owner, h.model, h.effort, h.locked, hm, he⟩

lemma ChoiceSound.explicit (h : ChoiceSound profile name c) :
    ChoiceSound profile name c.explicit := by
  refine h.of_requests rfl rfl rfl rfl ?_ ?_
  · rintro m hm
    exact (Option.some.inj hm).symm
  · rintro m hm
    exact (Option.some.inj hm).symm

/-- A stage passes and resolves to a choice exactly when its items store one that is sound. -/
lemma storedStage_iff : (∃ request, StoredStage value request ∧ ∃ found,
      resolveStage rt executionV1 profile [] name request = .ok found ∧
      ∃ item, value = .obj item ∧ c = withRequests item found) ↔
    ∃ item, value = .obj item ∧ StoresChoice item c ∧ ChoiceSound profile name c := by
  have hmodelKey : ("requested_" ++ ("model" : Text) : Text) = "requested_model" := by decide
  have heffortKey : ("requested_" ++ ("effort" : Text) : Text) = "requested_effort" := by decide
  constructor
  · rintro ⟨request, ⟨item, rfl, hrequired, honly, hm, he, rfl⟩, found, hfound, item', heq, rfl⟩
    obtain rfl := Value.obj.inj heq
    obtain ⟨hrole, hprovider, hmodel, heffort, -, -, hsound⟩ := resolveStage_stageRequest.mp hfound
    obtain ⟨om, hom, hmm, hms⟩ := (provenanceAgrees_iff hmodel).mp hm
    obtain ⟨oe, hoe, hee, hes⟩ := (provenanceAgrees_iff heffort).mp he
    rw [hmodelKey] at hom
    rw [heffortKey] at hoe
    have hwith : withRequests item found =
        { found with requestedModel := om, requestedEffort := oe } := by
      rw [withRequests, hom, hoe, textOf_optionValue, textOf_optionValue]
    rw [hwith]
    refine ⟨item, rfl, storesChoice_iff.mpr ⟨hrequired, honly, ?_⟩,
      hsound.of_requests rfl rfl rfl rfl hmm hee⟩
    intro k hk
    simp only [storedChoiceKeys, List.mem_cons, List.not_mem_nil, or_false] at hk
    rcases hk with rfl | rfl | rfl | rfl | rfl | rfl | rfl | rfl
    · exact hrole
    · exact hprovider
    · exact hom
    · exact hoe
    · exact hmodel
    · exact heffort
    · exact hms
    · exact hes
  · rintro ⟨item, rfl, hstores, hsound⟩
    obtain ⟨hrequired, honly, -⟩ := storesChoice_iff.mp hstores
    have hmodel : getValue "model" item = .str c.model := hstores.getValue "model"
    have heffort : getValue "effort" item = .str c.effort := hstores.getValue "effort"
    refine ⟨stageRequest item, ⟨item, rfl, hrequired, honly, ?_, ?_, rfl⟩, c.explicit, ?_, item, rfl,
      ?_⟩
    · exact (provenanceAgrees_iff hmodel).mpr ⟨c.requestedModel,
        hmodelKey ▸ hstores.getValue "requested_model", hsound.requestedModel,
        hstores.getValue "model_source"⟩
    · exact (provenanceAgrees_iff heffort).mpr ⟨c.requestedEffort,
        heffortKey ▸ hstores.getValue "requested_effort", hsound.requestedEffort,
        hstores.getValue "effort_source"⟩
    · exact resolveStage_stageRequest.mpr ⟨hstores.getValue "role", hstores.getValue "provider",
        hmodel, heffort, rfl, rfl, hsound.explicit⟩
    · have hom : getValue "requested_model" item = optionValue c.requestedModel :=
        hstores.getValue "requested_model"
      have hoe : getValue "requested_effort" item = optionValue c.requestedEffort :=
        hstores.getValue "requested_effort"
      rw [withRequests, hom, hoe, textOf_optionValue, textOf_optionValue]
      rfl

end

/-! ## The loop over the stored stages -/

section
variable {rt : Runtime}

lemma restoreStages_eq_ok {rest : List (Text × Value)} :
    ∀ {requests out : List (Text × Value)}, (dictKeys requests ++ dictKeys rest).Nodup →
      (restoreStages rt requests rest = .ok out ↔ ∃ found, out = requests ++ found ∧
        List.Forall₂ (fun s r => s.1 = r.1 ∧ StoredStage s.2 r.2) rest found) := by
  induction rest with
  | nil =>
      intro requests out _
      simp only [restoreStages, Except.ok.injEq, List.forall₂_nil_left_iff]
      constructor
      · rintro rfl
        exact ⟨[], by simp, rfl⟩
      · rintro ⟨_, rfl, rfl⟩
        simp
  | cons s rest ih =>
      obtain ⟨name, value⟩ := s
      intro requests out hnodup
      have hfresh : name ∉ dictKeys requests := by
        intro hmem
        have hdisjoint := (List.nodup_append.mp hnodup).2.2
        exact hdisjoint name hmem name List.mem_cons_self rfl
      have hnext : ∀ v, (dictKeys (requests ++ [(name, v)]) ++ dictKeys rest).Nodup := by
        intro v
        simpa [dictKeys, List.append_assoc] using hnodup
      simp only [restoreStages, bind_eq_ok, require_eq_ok]
      constructor
      · rintro ⟨item, hkeys, _, hmodel, _, heffort, h⟩
        obtain ⟨rfl, hrequired, honly⟩ := keysOf_eq_ok.mp hkeys
        rw [dictSet_of_notMem hfresh, ih (hnext _)] at h
        obtain ⟨found, rfl, hfound⟩ := h
        exact ⟨(name, stageRequest item) :: found, by simp [stageRequest], .cons ⟨rfl, item, rfl,
          hrequired, fun k hk => (honly k hk).resolve_right List.not_mem_nil, hmodel, heffort,
          rfl⟩ hfound⟩
      · rintro ⟨found, rfl, hfound⟩
        cases hfound with
        | @cons _ d _ found hd hrest =>
            obtain ⟨d1, d2⟩ := d
            obtain ⟨rfl, item, rfl, hrequired, honly, hmodel, heffort, rfl⟩ := hd
            refine ⟨item, keysOf_eq_ok.mpr ⟨rfl, hrequired, fun k hk => .inl (honly k hk)⟩, (),
              hmodel, (), heffort, ?_⟩
            rw [dictSet_of_notMem hfresh, ih (hnext _)]
            exact ⟨found, by simp [stageRequest], hrest⟩

lemma restoreStages_nil {rest out : List (Text × Value)} (hnodup : (dictKeys rest).Nodup) :
    restoreStages rt [] rest = .ok out ↔
      List.Forall₂ (fun s r => s.1 = r.1 ∧ StoredStage s.2 r.2) rest out := by
  have hnodup' : (dictKeys ([] : List (Text × Value)) ++ dictKeys rest).Nodup := hnodup
  rw [restoreStages_eq_ok hnodup']
  constructor
  · rintro ⟨_, rfl, h⟩
    exact h
  · exact fun h => ⟨out, rfl, h⟩

end

/-! ## The stored plan -/

/-- The items hold what the plan writes; the policy may be spelled out. -/
structure Stores (items : List (Text × Value)) (p : ExecutionPlan) : Prop where
  fields : ∀ key : Text, key ≠ "stages" → key ≠ "policy_version" →
    dictGet key items = dictGet key p.toDict
  policy : ∀ v ∈ dictGet "policy_version" items, v = .str defaultPolicy
  stages : ∃ stages, dictGet "stages" items = some (.obj stages) ∧
    List.Forall₂ (fun s c => s.1 = c.1 ∧ ∃ item, s.2 = .obj item ∧ StoresChoice item c.2)
      stages p.stages

section
variable {pf : Platform} {profile : Profile} {items stages requests : List (Text × Value)}
  {p : ExecutionPlan} {expected : Value} {key : Text}

/-- The stages of a well-keyed dictionary have a name each. -/
lemma nodup_of_wellKeyed {v : Value} (h : (Value.obj items).wellKeyed = true)
    (hget : dictGet key items = some v) : v.wellKeyed = true := by
  simp only [Value.wellKeyed, Bool.and_eq_true] at h
  exact wellKeyedPairs_iff.mp h.2 (key, v) (mem_of_dictGet hget)

lemma nodup_stages (h : (Value.obj items).wellKeyed = true)
    (hget : dictGet key items = some (.obj stages)) : (dictKeys stages).Nodup := by
  have hstages := nodup_of_wellKeyed h hget
  simp only [Value.wellKeyed, Bool.and_eq_true, decide_eq_true_eq] at hstages
  exact hstages.1

lemma dictGet_filter {keep : Text → Bool} : dictGet key (items.filter fun item => keep item.1) =
    if keep key then dictGet key items else none := by
  induction items with
  | nil => simp [dictGet]
  | cons q items ih =>
      obtain ⟨k, v⟩ := q
      by_cases hk : keep k = true
      · rw [List.filter_cons, if_pos hk, dictGet_cons, dictGet_cons, ih]
        by_cases heq : k = key
        · subst heq
          simp [hk]
        · simp [heq]
      · rw [List.filter_cons, if_neg hk, dictGet_cons, ih]
        by_cases heq : k = key
        · subst heq
          simp [hk]
        · simp [heq]

/-- The request a stored dictionary is resolved by. -/
def planRequest (items requests : List (Text × Value)) : List (Text × Value) :=
  dictSet "stages" (.obj requests)
    (items.filter fun item => item.1 ∉ (["stages", "defaults_digest"] : List Text))

lemma dictGet_planRequest : dictGet key (planRequest items requests) =
    if key = "stages" then some (.obj requests)
    else if key = "defaults_digest" then none else dictGet key items := by
  rw [planRequest, dictGet_dictSet]
  by_cases hstages : key = "stages"
  · simp [hstages]
  · rw [if_neg (Ne.symm hstages), if_neg hstages,
      @dictGet_filter items key fun k => decide (k ∉ (["stages", "defaults_digest"] : List Text))]
    by_cases hdigest : key = "defaults_digest"
    · simp [hdigest]
    · simp [hstages, hdigest]

/-- Choices that ask for all they were resolved to leave nothing to the defaults. -/
lemma usesDefault_eq_false {choices : List (Text × ExecutionChoice)}
    (h : ∀ c ∈ choices, c.2.requestedModel.isSome = true ∧ c.2.requestedEffort.isSome = true) :
    usesDefault choices = false := by
  rw [usesDefault, List.any_eq_false]
  intro c hc
  obtain ⟨hmodel, heffort⟩ := h c hc
  simp [Option.isNone_iff_eq_none, Option.isSome_iff_ne_none.mp hmodel,
    Option.isSome_iff_ne_none.mp heffort]

lemma dictKeys_plan (p : ExecutionPlan) (h : p.policyVersion = none) : dictKeys p.toDict =
    ["schema_version", "logical_work_id", "spec_series_id", "defaults_digest", "stages"] := by
  rw [ExecutionPlan.toDict, h]
  rfl

/-- `data["stages"][name]` of a stage that is there. -/
lemma restoredChoice_of_mem {name : Text} {item : List (Text × Value)} (c : ExecutionChoice)
    (hnodup : (dictKeys stages).Nodup) (hmem : (name, Value.obj item) ∈ stages) :
    restoredChoice stages name c = withRequests item c := by
  have hget : dictGet name stages = some (.obj item) := dictGet_of_mem hnodup hmem
  rw [restoredChoice, getValue_eq hget]
  rfl

/-- The stages of a stored dictionary, resolved and given back what they had requested, are the
choices it stores. -/
lemma restoredStages_iff {found : List (Text × ExecutionChoice)}
    (hnodup : (dictKeys stages).Nodup) :
    (∃ requests resolved, restoreStages pf.toRuntime [] stages = .ok requests ∧
        resolveStages pf.toRuntime executionV1 profile [] [] requests = .ok resolved ∧
        found = resolved.map fun s => (s.1, restoredChoice stages s.1 s.2)) ↔
      List.Forall₂ (fun s c => s.1 = c.1 ∧ ∃ item, s.2 = .obj item ∧ StoresChoice item c.2)
          stages found ∧ ∀ c ∈ found, ChoiceSound profile c.1 c.2 := by
  constructor
  · rintro ⟨requests, resolved, hrequests, hresolved, rfl⟩
    have hstored := (restoreStages_nil hnodup).mp hrequests
    have hnames := dictKeys_of_forall₂ (hstored.imp fun _ _ h => h.1)
    have hchosen := (resolveStages_nil (hnames ▸ hnodup)).mp hresolved
    have hboth : List.Forall₂ (fun s c => s.1 = c.1 ∧ (∃ item, s.2 = .obj item ∧
        StoresChoice item (restoredChoice stages c.1 c.2)) ∧
        ChoiceSound profile c.1 (restoredChoice stages c.1 c.2)) stages resolved := by
      refine (forall₂_mem (forall₂_comp hstored hchosen)).imp ?_
      rintro ⟨name, value⟩ ⟨name', c⟩ ⟨hmem, -, ⟨r1, r2⟩, ⟨rfl, hstage⟩, rfl, hc⟩
      refine ⟨rfl, ?_⟩
      obtain ⟨item, rfl, hitem⟩ := hstage
      obtain ⟨item', heq, hstores, hsound⟩ := storedStage_iff.mp
        ⟨r2, ⟨item, rfl, hitem⟩, c, hc, item, rfl, restoredChoice_of_mem c hnodup hmem⟩
      exact ⟨⟨item', heq, hstores⟩, hsound⟩
    constructor
    · rw [List.forall₂_map_right_iff]
      exact hboth.imp fun _ _ h => ⟨h.1, h.2.1⟩
    · intro c hc
      obtain ⟨d, hd, rfl⟩ := List.mem_map.mp hc
      obtain ⟨s, -, h⟩ := forall₂_right hboth d hd
      exact h.2.2
  · rintro ⟨hstores, hsound⟩
    have hboth : List.Forall₂ (fun s c => ∃ r : Text × Value,
        (s.1 = r.1 ∧ StoredStage s.2 r.2) ∧ ∃ d : Text × ExecutionChoice,
          (r.1 = d.1 ∧ resolveStage pf.toRuntime executionV1 profile [] r.1 r.2 = .ok d.2) ∧
          c = (d.1, restoredChoice stages d.1 d.2)) stages found := by
      refine (forall₂_mem hstores).imp ?_
      rintro ⟨name, value⟩ ⟨name', c⟩ ⟨hmem, hmem', rfl, item, hitem, hchoice⟩
      obtain ⟨request, hstage, d, hd, item', hitem', rfl⟩ := storedStage_iff.mpr
        ⟨item, hitem, hchoice, hsound _ hmem'⟩
      obtain rfl : value = .obj item' := hitem'
      exact ⟨(name, request), ⟨rfl, hstage⟩, (name, d), ⟨rfl, hd⟩,
        by rw [restoredChoice_of_mem d hnodup hmem]⟩
    obtain ⟨requests, hrequests, hrest⟩ := exists_forall₂ hboth
    obtain ⟨resolved, hresolved, hfound⟩ := exists_forall₂ hrest
    have hnames := dictKeys_of_forall₂ (hrequests.imp fun _ _ h => h.1)
    refine ⟨requests, resolved, ?_, ?_, ?_⟩
    · exact (restoreStages_nil hnodup).mpr hrequests
    · exact (resolveStages_nil (hnames ▸ hnodup)).mpr hresolved
    · have hmap : List.Forall₂ (· = ·) found
          (resolved.map fun s => (s.1, restoredChoice stages s.1 s.2)) := by
        rw [List.forall₂_map_right_iff]
        exact hfound.flip
      exact List.forall₂_eq_eq_eq ▸ hmap

/-- What is read of a stored plan, its stages apart. -/
lemma Stores.getValue (h : Stores items p) (hstages : key ≠ "stages")
    (hpolicy : key ≠ "policy_version") : getValue key items = Json.getValue key p.toDict := by
  rw [Json.getValue, h.fields key hstages hpolicy]
  rfl

/-- The keys of a stored plan. -/
lemma Stores.keys (h : Stores items p) (hpolicy : p.policyVersion = none) :
    (∀ k ∈ dictKeys p.toDict, k ∈ dictKeys items) ∧
      ∀ k ∈ dictKeys items, k ∈ dictKeys p.toDict ∨ k = "policy_version" := by
  have hplan := dictKeys_plan p hpolicy
  obtain ⟨stages, hget, -⟩ := h.stages
  have hiff : ∀ k : Text, k ≠ "policy_version" → (k ∈ dictKeys items ↔ k ∈ dictKeys p.toDict) := by
    intro k hk
    by_cases hstages : k = "stages"
    · subst hstages
      rw [← dictGet_isSome, hget, hplan]
      exact ⟨fun _ => by decide, fun _ => rfl⟩
    · rw [← dictGet_isSome, h.fields k hstages hk, dictGet_isSome]
  constructor
  · intro k hk
    refine (hiff k ?_).mpr hk
    rintro rfl
    rw [hplan] at hk
    exact absurd hk (by decide)
  · intro k hk
    by_cases hk' : k = "policy_version"
    · exact .inr hk'
    · exact .inl ((hiff k hk').mp hk)

lemma restoredDefaults_eq_ok {used : Bool} {v : Value} {digest : Option Text} :
    restoredDefaults used v = .ok digest ↔
      v = optionValue digest ∧ restoredDefaults used (optionValue digest) = .ok digest := by
  constructor
  · intro h
    suffices hv : v = optionValue digest by exact ⟨hv, hv ▸ h⟩
    cases used with
    | true =>
        cases v with
        | str d =>
            unfold restoredDefaults at h
            dsimp only at h
            split_ifs at h
            obtain rfl := Except.ok.inj h
            rfl
        | _ => cases h
    | false =>
        cases v with
        | null =>
            obtain rfl := Except.ok.inj h
            rfl
        | _ => cases h
  · rintro ⟨rfl, h⟩
    exact h

/-- What is asked of the items apart from their stages. -/
lemma dictGet_planRequest_of_ne (hstages : key ≠ "stages") (hdefaults : key ≠ "defaults_digest") :
    dictGet key (planRequest items requests) = dictGet key items := by
  rw [dictGet_planRequest, if_neg hstages, if_neg hdefaults]

lemma getValue_planRequest_of_ne (hstages : key ≠ "stages")
    (hdefaults : key ≠ "defaults_digest") :
    getValue key (planRequest items requests) = getValue key items := by
  rw [getValue, getValue, dictGet_planRequest_of_ne hstages hdefaults]

/-- The keys of a snapshot. -/
def snapshotKeys : List Text :=
  ["schema_version", "logical_work_id", "spec_series_id", "stages", "defaults_digest"]

lemma mem_dictKeys_plan (hpolicy : p.policyVersion = none) :
    key ∈ dictKeys p.toDict ↔ key ∈ snapshotKeys := by
  have hsub : ∀ k ∈ (["schema_version", "logical_work_id", "spec_series_id", "defaults_digest",
      "stages"] : List Text), k ∈ snapshotKeys := by decide
  have hsup : ∀ k ∈ snapshotKeys, k ∈ (["schema_version", "logical_work_id", "spec_series_id",
      "defaults_digest", "stages"] : List Text) := by decide
  rw [dictKeys_plan p hpolicy]
  exact ⟨hsub key, hsup key⟩

/-- The fields of a dictionary whose request resolves. -/
lemma fields_of_resolvesTo {checked : ExecutionPlan} (hrequired : ∀ k ∈ snapshotKeys,
      k ∈ dictKeys items) (honly : ∀ k ∈ dictKeys items, k ∈ snapshotKeys ∨
      k ∈ (["policy_version"] : List Text))
    (hresolves : ResolvesTo pf.toRuntime pf profile [] (planRequest items requests) checked)
    (hwork : p.logicalWorkId = checked.logicalWorkId)
    (hseries : p.specSeriesId = checked.specSeriesId) (hpolicy : p.policyVersion = none)
    (hdefaults : getValue "defaults_digest" items = optionValue p.defaultsDigest)
    (hstages : key ≠ "stages") (hversion : key ≠ "policy_version") :
    dictGet key items = dictGet key p.toDict := by
  by_cases hkey : key ∈ snapshotKeys
  · rw [dictGet_of_mem_keys (hrequired key hkey)]
    have hschema := hresolves.version
    have hworks := hresolves.work
    have hserieses := hresolves.series
    rw [getValue_planRequest_of_ne (by decide) (by decide)] at hschema hworks hserieses
    simp only [snapshotKeys, List.mem_cons, List.not_mem_nil, or_false] at hkey
    rcases hkey with rfl | rfl | rfl | rfl | rfl
    · rw [hschema]
      rfl
    · rw [hworks, ← hwork]
      rfl
    · rw [hserieses, ← hseries]
      rfl
    · exact absurd rfl hstages
    · rw [hdefaults]
      rfl
  · have hnot : key ∉ dictKeys items := by
      intro hmem
      rcases honly key hmem with h | h
      · exact hkey h
      · exact hversion (List.mem_singleton.mp h)
    have hnot' : key ∉ dictKeys p.toDict := fun h => hkey ((mem_dictKeys_plan hpolicy).mp h)
    rw [dictGet_eq_none hnot, dictGet_eq_none hnot']

/-- The request of a stored plan resolves, given that its stages do. -/
lemma Stores.resolvesTo {resolved : List (Text × ExecutionChoice)} (hstores : Stores items p)
    (hresolved : Resolved profile p)
    (hcovers : ∀ k, k ∈ dictKeys requests ↔ k ∈ workingStages profile)
    (hfound : resolveStages pf.toRuntime executionV1 profile [] [] requests = .ok resolved)
    (hexplicit : usesDefault resolved = false) :
    ResolvesTo pf.toRuntime pf profile [] (planRequest items requests)
      { p with stages := resolved, defaultsDigest := none } := by
  obtain ⟨hrequired, honly⟩ := hstores.keys hresolved.policy
  have hvalue : ∀ key : Text, key ≠ "stages" → key ≠ "defaults_digest" → key ≠ "policy_version" →
      Json.getValue key (planRequest items requests) = Json.getValue key p.toDict := by
    intro key hstages hdefaults hpolicy
    rw [getValue_planRequest_of_ne hstages hdefaults]
    exact hstores.getValue hstages hpolicy
  have hrest : ∀ k ∈ snapshotKeys, k ≠ "stages" → k ≠ "defaults_digest" →
      k ∈ (["schema_version", "logical_work_id", "spec_series_id", "stages"] : List Text) := by
    decide
  have hkept : ∀ k ∈ (["schema_version", "logical_work_id", "spec_series_id", "stages"] :
      List Text), k ∈ snapshotKeys ∧ k ≠ "defaults_digest" := by decide
  refine ⟨?_, ?_, ?_, hvalue _ (by decide) (by decide) (by decide),
    hvalue _ (by decide) (by decide) (by decide), hvalue _ (by decide) (by decide) (by decide),
    hresolved.work, hresolved.series, ⟨requests, ?_, fun k => (hcovers k).mpr,
      fun k => (hcovers k).mp, hfound⟩, ?_, hresolved.policy⟩
  · intro k hk
    obtain ⟨hsnapshot, hdefaults⟩ := hkept k hk
    rw [← dictGet_isSome, dictGet_planRequest, if_neg hdefaults]
    split_ifs
    · rfl
    · rw [dictGet_isSome]
      exact hrequired k ((mem_dictKeys_plan hresolved.policy).mpr hsnapshot)
  · intro k hk
    rw [← dictGet_isSome, dictGet_planRequest] at hk
    split_ifs at hk with hstages hdefaults
    · subst hstages
      exact .inl (by decide)
    · cases hk
    · rw [dictGet_isSome] at hk
      rcases honly k hk with h | h
      · exact .inl (hrest k ((mem_dictKeys_plan hresolved.policy).mp h) hstages hdefaults)
      · exact .inr (List.mem_singleton.mpr h)
  · intro v hv
    rw [dictGet_planRequest_of_ne (by decide) (by decide)] at hv
    exact hstores.policy v hv
  · rw [Json.getValue, dictGet_planRequest, if_pos rfl]
    rfl
  · rw [hexplicit, if_neg Bool.false_ne_true]

/-- A stored stage asks for all it is resolved to. -/
lemma usesDefault_of_stored {resolved : List (Text × ExecutionChoice)}
    (hstored : List.Forall₂ (fun s r => s.1 = r.1 ∧ StoredStage s.2 r.2) stages requests)
    (hchosen : List.Forall₂ (fun s c => s.1 = c.1 ∧
      resolveStage pf.toRuntime executionV1 profile [] s.1 s.2 = .ok c.2) requests resolved) :
    usesDefault resolved = false := by
  refine usesDefault_eq_false fun c hc => ?_
  obtain ⟨s, -, ⟨_, s2⟩, ⟨-, item, -, -, -, -, -, rfl⟩, -, hc⟩ :=
    forall₂_right (forall₂_comp hstored hchosen) c hc
  obtain ⟨-, -, -, -, hmodel, heffort, -⟩ := resolveStage_stageRequest.mp hc
  rw [hmodel, heffort]
  exact ⟨rfl, rfl⟩

/-- What is accepted stores the plan it is restored to. -/
lemma stores_of_restorePlan (hkeyed : (Value.obj items).wellKeyed = true)
    (h : restorePlan pf (.obj items) profile expected = .ok p) :
    Stores items p ∧ Resolved profile p ∧ ∃ d, p.digest pf = .ok d ∧ expected = .str d := by
  obtain ⟨_, hkeys, h⟩ := bind_eq_ok.mp h
  obtain ⟨heq, hrequired, honly⟩ := keysOf_eq_ok.mp hkeys
  obtain rfl := Value.obj.inj heq
  have hstagesKey : ("stages" : Text) ∈ dictKeys items := hrequired _ (by decide)
  cases hstages : getValue "stages" items with
  | obj stages =>
      rw [hstages] at h
      obtain ⟨requests, hrequests, h⟩ := bind_eq_ok.mp h
      obtain ⟨checked, hchecked, h⟩ := bind_eq_ok.mp h
      obtain ⟨digest, hdigest, h⟩ := bind_eq_ok.mp h
      obtain ⟨d, hd, h⟩ := bind_eq_ok.mp h
      obtain ⟨_, hexpected, h⟩ := bind_eq_ok.mp h
      obtain rfl := Except.ok.inj h
      clear h hkeys heq
      rw [require_eq_ok, eqv_str] at hexpected
      have hget : dictGet "stages" items = some (.obj stages) := by
        rw [dictGet_of_mem_keys hstagesKey, hstages]
      have hnodup := nodup_stages hkeyed hget
      obtain ⟨request, hrequest, hresolves⟩ := resolveRequest_eq_ok.mp hchecked
      obtain rfl : planRequest items requests = request := Value.obj.inj hrequest
      obtain ⟨found, hfound, hcovers, hcovered, hresolved⟩ := hresolves.stages
      obtain rfl : requests = found := by
        rw [getValue, dictGet_planRequest, if_pos rfl] at hfound
        exact Value.obj.inj hfound
      obtain ⟨hstores, hsound⟩ :=
        (restoredStages_iff hnodup).mp ⟨requests, checked.stages, hrequests, hresolved, rfl⟩
      have hnames := dictKeys_of_forall₂ (hstores.imp fun _ _ h => h.1)
      have hnames' := dictKeys_of_forall₂
        (((restoreStages_nil hnodup).mp hrequests).imp fun _ _ h => h.1)
      obtain ⟨hdefaults, hdefaults'⟩ := restoredDefaults_eq_ok.mp hdigest
      refine ⟨⟨fun key => fields_of_resolvesTo hrequired honly hresolves rfl rfl
        hresolves.policyVersion hdefaults, ?_, stages, hget, hstores⟩, ⟨hresolves.works,
        hresolves.serieses, hnames ▸ hnodup, ?_, hsound, hdefaults', hresolves.policyVersion⟩,
        d, hd, hexpected⟩
      · intro v hv
        refine hresolves.policy v ?_
        rw [dictGet_planRequest_of_ne (by decide) (by decide)]
        exact hv
      · intro name
        rw [← hnames, hnames']
        exact ⟨hcovered name, hcovers name⟩
  | _ =>
      rw [hstages] at h
      cases h

/-- And what stores a plan is restored to it. -/
lemma Stores.restorePlan {d : Text} (hstores : Stores items p) (hresolved : Resolved profile p)
    (hkeyed : (Value.obj items).wellKeyed = true) (hd : p.digest pf = .ok d) :
    restorePlan pf (.obj items) profile (.str d) = .ok p := by
  obtain ⟨stages, hget, hchoices⟩ := hstores.stages
  obtain ⟨hrequired, honly⟩ := hstores.keys hresolved.policy
  have hnodup := nodup_stages hkeyed hget
  have hnames := dictKeys_of_forall₂ (hchoices.imp fun _ _ h => h.1)
  obtain ⟨requests, resolved, hrequests, hfound, hstages⟩ :=
    (@restoredStages_iff pf profile stages _ hnodup).mpr ⟨hchoices, hresolved.choices⟩
  have hstored := (restoreStages_nil hnodup).mp hrequests
  have hnames' := dictKeys_of_forall₂ (hstored.imp fun _ _ h => h.1)
  have hexplicit := usesDefault_of_stored hstored ((resolveStages_nil (hnames' ▸ hnodup)).mp hfound)
  have hcovers : ∀ k, k ∈ dictKeys requests ↔ k ∈ workingStages profile := by
    intro k
    rw [← hnames', hnames, hresolved.covers]
  have hresolves := hstores.resolvesTo hresolved hcovers hfound hexplicit
  have hdefaults : Json.getValue "defaults_digest" items = optionValue p.defaultsDigest :=
    hstores.getValue (by decide) (by decide)
  have hkeys : keysOf pf.toRuntime (.obj items) snapshotKeys ["policy_version"] "snapshot" =
      .ok items := by
    refine keysOf_eq_ok.mpr ⟨rfl, ?_, ?_⟩
    · exact fun k hk => hrequired k ((mem_dictKeys_plan hresolved.policy).mpr hk)
    · intro k hk
      rcases honly k hk with h | h
      · exact .inl ((mem_dictKeys_plan hresolved.policy).mp h)
      · exact .inr (List.mem_singleton.mpr h)
  refine bind_eq_ok.mpr ⟨items, hkeys, ?_⟩
  rw [getValue_eq hget]
  obtain ⟨work, series, found, digest, policyVersion⟩ := p
  dsimp only at hstages
  subst hstages
  refine bind_eq_ok.mpr ⟨requests, hrequests, bind_eq_ok.mpr ⟨_,
    resolveRequest_eq_ok.mpr ⟨_, rfl, hresolves⟩, bind_eq_ok.mpr ⟨digest, ?_,
    bind_eq_ok.mpr ⟨d, hd, bind_eq_ok.mpr ⟨(), ?_, rfl⟩⟩⟩⟩⟩
  · rw [hdefaults]
    exact hresolved.defaults
  · exact require_eq_ok.mpr (eqv_str.mpr rfl)

/-- A dictionary is accepted exactly when it stores a plan the profile resolves to, under the digest
of that plan. -/
theorem restorePlan_eq_ok (hkeyed : (Value.obj items).wellKeyed = true) :
    restorePlan pf (.obj items) profile expected = .ok p ↔
      Stores items p ∧ Resolved profile p ∧ ∃ d, p.digest pf = .ok d ∧ expected = .str d := by
  constructor
  · exact stores_of_restorePlan hkeyed
  · rintro ⟨hstores, hresolved, d, hd, rfl⟩
    exact hstores.restorePlan hresolved hkeyed hd

end

theorem restorePlan_eq_ok_draft :
    restorePlan zeroPlatform (.obj draftPlan.toDict) draftReviewProfile (.str zeroDigest) =
        .ok draftPlan ↔
      Stores draftPlan.toDict draftPlan ∧ Resolved draftReviewProfile draftPlan ∧
        ∃ d, draftPlan.digest zeroPlatform = .ok d ∧ Value.str zeroDigest = .str d :=
  restorePlan_eq_ok (by decide)

end AgentOrch.Execution
