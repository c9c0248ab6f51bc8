import AgentOrch.Properties.PlanRoundTrip

/-!
# Sealed plans

A stored plan is the dictionary its digest was taken of, but for the order of the keys and a policy
that may be spelled out.  So whoever changes the role, the provider, the model, the effort or the
provenance of a stage under the digest of another plan has found two texts with one SHA-256.
-/

namespace AgentOrch.Json

open Py

section
variable {items items' : List (Text × Value)}

/-- Two well-keyed lists of items that hold the same under every key are sorted into one. -/
lemma sortedItems_congr (hnodup : (dictKeys items).Nodup) (hnodup' : (dictKeys items').Nodup)
    (h : ∀ key, (dictGet key items).map Value.sortKeys = (dictGet key items').map Value.sortKeys) :
    sortedItems items = sortedItems items' := by
  have hkeys : (dictKeys (sortPairs items)).Nodup := by rwa [dictKeys_sortPairs]
  have hkeys' : (dictKeys (sortPairs items')).Nodup := by rwa [dictKeys_sortPairs]
  have hmem : ∀ p, p ∈ sortPairs items ↔ p ∈ sortPairs items' := by
    rintro ⟨key, v⟩
    have hiff : ∀ {xs : List (Text × Value)}, (dictKeys xs).Nodup →
        ((key, v) ∈ xs ↔ dictGet key xs = some v) :=
      fun hxs => ⟨dictGet_of_mem hxs, mem_of_dictGet⟩
    rw [hiff hkeys, hiff hkeys', dictGet_sortPairs, dictGet_sortPairs, h]
  have hperm : (sortPairs items).Perm (sortPairs items') :=
    (List.perm_ext_iff_of_nodup (List.Nodup.of_map _ hkeys) (List.Nodup.of_map _ hkeys')).mpr hmem
  have hsorted := (List.perm_insertionSort keyLe (sortPairs items)).trans
    (hperm.trans (List.perm_insertionSort keyLe (sortPairs items')).symm)
  refine hsorted.eq_of_pairwise ?_ (List.pairwise_insertionSort keyLe _)
    (List.pairwise_insertionSort keyLe _)
  intro p q hp hq hle hle'
  have hp' : p ∈ sortPairs items' := (hmem p).mp
    ((List.perm_insertionSort keyLe (sortPairs items)).mem_iff.mp hp)
  have hq' : q ∈ sortPairs items' :=
    (List.perm_insertionSort keyLe (sortPairs items')).mem_iff.mp hq
  have hkey : p.1 = q.1 := textLe_antisymm hle hle'
  exact List.inj_on_of_nodup_map hkeys' hp' hq' hkey

end

end AgentOrch.Json

namespace AgentOrch.Execution

open Py Json

section
variable {pf : Platform} {profile : Profile} {items : List (Text × Value)} {p q : ExecutionPlan}
  {expected : Value}

/-! ## What is stored is one plan -/

lemma choice_unique {item : List (Text × Value)} {c d : ExecutionChoice} (hc : StoresChoice item c)
    (hd : StoresChoice item d) : c = d := by
  have hread : ∀ key, getValue key c.toDict = getValue key d.toDict :=
    fun key => (hc.getValue key).symm.trans (hd.getValue key)
  obtain ⟨role, provider, requestedModel, requestedEffort, model, effort⟩ := c
  obtain ⟨role', provider', requestedModel', requestedEffort', model', effort'⟩ := d
  obtain rfl : role = role' := Value.str.inj (hread "role")
  obtain rfl : provider = provider' := Value.str.inj (hread "provider")
  obtain rfl : requestedModel = requestedModel' := optionValue_injective (hread "requested_model")
  obtain rfl : requestedEffort = requestedEffort' :=
    optionValue_injective (hread "requested_effort")
  obtain rfl : model = model' := Value.str.inj (hread "model")
  obtain rfl : effort = effort' := Value.str.inj (hread "effort")
  rfl

/-- A dictionary stores one plan at most. -/
lemma Stores.unique (hp : Stores items p) (hq : Stores items q) (hp' : p.policyVersion = none)
    (hq' : q.policyVersion = none) : p = q := by
  have hread : ∀ key : Text, key ≠ "stages" → key ≠ "policy_version" →
      Json.getValue key p.toDict = Json.getValue key q.toDict :=
    fun key hstages hpolicy =>
      (hp.getValue hstages hpolicy).symm.trans (hq.getValue hstages hpolicy)
  obtain ⟨stages, hget, hchoices⟩ := hp.stages
  obtain ⟨stages', hget', hchoices'⟩ := hq.stages
  obtain rfl : stages = stages' := Value.obj.inj (Option.some.inj (hget.symm.trans hget'))
  have hunique : Relator.RightUnique fun (s : Text × Value) (c : Text × ExecutionChoice) =>
      s.1 = c.1 ∧ ∃ item, s.2 = .obj item ∧ StoresChoice item c.2 := by
    rintro ⟨name, value⟩ ⟨name1, c⟩ ⟨name2, d⟩ ⟨rfl, item, rfl, hc⟩ ⟨rfl, item', heq, hd⟩
    obtain rfl := Value.obj.inj heq
    exact congrArg (Prod.mk name) (choice_unique hc hd)
  have hstages := hunique.forall₂ hchoices hchoices'
  obtain ⟨work, series, found, digest, policyVersion⟩ := p
  obtain ⟨work', series', found', digest', policyVersion'⟩ := q
  obtain rfl : work = work' :=
    Value.str.inj (hread "logical_work_id" (by decide) (by decide))
  obtain rfl : series = series' :=
    Value.str.inj (hread "spec_series_id" (by decide) (by decide))
  obtain rfl : digest = digest' :=
    optionValue_injective (hread "defaults_digest" (by decide) (by decide))
  obtain rfl : found = found' := hstages
  obtain rfl : policyVersion = none := hp'
  obtain rfl : policyVersion' = none := hq'
  rfl

/-- The canonical bytes tell dictionaries apart. -/
lemma sortKeys_eq_of_canonicalJson {rt : Runtime} {n m : ℕ} {v w : Value} {bytes : Bytes}
    (hv : Shallow n v) (hw : Shallow m w) (h : canonicalJson rt v = .ok bytes)
    (h' : canonicalJson rt w = .ok bytes) : v.sortKeys = w.sortKeys := by
  obtain ⟨t, ht, hbytes⟩ := bind_eq_ok.mp h
  obtain ⟨t', ht', hbytes'⟩ := bind_eq_ok.mp h'
  obtain rfl := encoded_inj hbytes hbytes'
  have hdumps : ∀ {x : Value}, rt.dumpsSorted x = .ok t →
      Json.dumps rt.dumpsDepth rt.floatRepr x = .ok t := by
    intro x hx
    unfold Runtime.dumpsSorted at hx
    split at hx
    · next hok =>
      obtain rfl := Except.ok.inj hx
      exact hok
    · cases hx
    · cases hx
    · cases hx
  exact sortKeys_eq_of_dumps_eq hv.floatFree hv.keyed hw.floatFree hw.keyed (hdumps ht) (hdumps ht')

lemma bytes_of_digest {d : Text} (h : p.digest pf = .ok d) :
    ∃ bytes, canonicalJson pf.toRuntime (.obj p.toDict) = .ok bytes ∧ pf.sha256 bytes = d := by
  unfold ExecutionPlan.digest at h
  cases hbytes : canonicalJson pf.toRuntime (.obj p.toDict) with
  | error e =>
      rw [hbytes] at h
      cases h
  | ok bytes =>
      rw [hbytes] at h
      exact ⟨bytes, rfl, Except.ok.inj h⟩

/-- The items of a dictionary but for the policy. -/
def withoutPolicy (items : List (Text × Value)) : List (Text × Value) :=
  items.filter fun item => decide (item.1 ≠ "policy_version")

lemma dictGet_withoutPolicy (key : Text) : dictGet key (withoutPolicy items) =
    if key = "policy_version" then none else dictGet key items := by
  rw [withoutPolicy, @dictGet_filter items key fun k => decide (k ≠ "policy_version")]
  by_cases hkey : key = "policy_version"
  · simp [hkey]
  · simp [hkey]

/-- What stores a plan is, but for the order of its keys and the policy, what the plan writes. -/
lemma Stores.sortKeys_eq (h : Stores items p) (hresolved : Resolved profile p)
    (hkeyed : (Value.obj items).wellKeyed = true) :
    (Value.obj (withoutPolicy items)).sortKeys = (Value.obj p.toDict).sortKeys := by
  have hnodup : (dictKeys items).Nodup := by
    simp only [Value.wellKeyed, Bool.and_eq_true, decide_eq_true_eq] at hkeyed
    exact hkeyed.1
  have hnodup' : (dictKeys (withoutPolicy items)).Nodup :=
    hnodup.sublist (List.filter_sublist.map Prod.fst)
  have hplan : (dictKeys p.toDict).Nodup := by
    rw [dictKeys_plan p hresolved.policy]
    decide
  obtain ⟨stages, hget, hchoices⟩ := h.stages
  rw [sortKeys_obj, sortKeys_obj]
  refine congrArg Value.obj (sortedItems_congr hnodup' hplan fun key => ?_)
  rw [dictGet_withoutPolicy]
  by_cases hpolicy : key = "policy_version"
  · have hnot : key ∉ dictKeys p.toDict := by
      rw [mem_dictKeys_plan hresolved.policy, hpolicy]
      decide
    rw [if_pos hpolicy, dictGet_eq_none hnot]
  · rw [if_neg hpolicy]
    by_cases hstages : key = "stages"
    · subst hstages
      rw [hget]
      refine congrArg some ?_
      show (Value.obj stages).sortKeys =
        (Value.obj (p.stages.map fun s => (s.1, Value.obj s.2.toDict))).sortKeys
      have hsame : sortPairs stages =
          sortPairs (p.stages.map fun s => (s.1, Value.obj s.2.toDict)) := by
        rw [sortPairs_eq_map, sortPairs_eq_map, List.map_map]
        refine List.forall₂_eq_eq_eq ▸ ?_
        rw [List.forall₂_map_left_iff, List.forall₂_map_right_iff]
        refine (forall₂_mem hchoices).imp ?_
        rintro ⟨name, value⟩ ⟨name', c⟩ ⟨hmem, -, rfl, item, rfl, hc⟩
        have hitem : (Value.obj item).wellKeyed = true := by
          have hall := nodup_of_wellKeyed hkeyed hget
          simp only [Value.wellKeyed, Bool.and_eq_true] at hall
          exact wellKeyedPairs_iff.mp hall.2 _ hmem
        simp only [Value.wellKeyed, Bool.and_eq_true, decide_eq_true_eq] at hitem
        have hchoice : (dictKeys c.toDict).Nodup := by
          rw [dictKeys_toDict]
          decide
        show (name, (Value.obj item).sortKeys) = (name, (Value.obj c.toDict).sortKeys)
        rw [sortKeys_obj, sortKeys_obj,
          sortedItems_congr hitem.1 hchoice fun key => congrArg _ (hc key)]
      rw [sortKeys_obj, sortKeys_obj, sortedItems, sortedItems, hsame]
    · rw [h.fields key hstages hpolicy]

/-! ## What a digest seals -/

/-- A plan that is accepted comes back under the expected digest, its dictionary is the one the
digest is taken of, and another plan accepted under it is the same one, or its text has the same
SHA-256. -/
theorem restorePlan_sealed (hkeyed : (Value.obj items).wellKeyed = true)
    (h : restorePlan pf (.obj items) profile expected = .ok p) :
    (∃ d, expected = .str d ∧ p.digest pf = .ok d) ∧
      (Value.obj (withoutPolicy items)).sortKeys = (Value.obj p.toDict).sortKeys ∧
      ∀ items' profile' q, (Value.obj items').wellKeyed = true →
        restorePlan pf (.obj items') profile' expected = .ok q →
        (∀ data data', validateProfile data = .ok profile → validateProfile data' = .ok profile' →
          p.sorted = q.sorted ∨ ∃ bytes bytes',
            canonicalJson pf.toRuntime (.obj p.toDict) = .ok bytes ∧
            canonicalJson pf.toRuntime (.obj q.toDict) = .ok bytes' ∧ bytes ≠ bytes' ∧
            pf.sha256 bytes = pf.sha256 bytes') := by
  obtain ⟨hstores, hresolved, d, hd, rfl⟩ := stores_of_restorePlan hkeyed h
  refine ⟨⟨d, rfl, hd⟩, hstores.sortKeys_eq hresolved hkeyed, ?_⟩
  intro items' profile' q hkeyed' h' data data' hprofile hprofile'
  obtain ⟨-, hresolved', d', hd', heq⟩ := stores_of_restorePlan hkeyed' h'
  obtain rfl := Value.str.inj heq
  have hsimple := hresolved.simple (validateProfile_wellFormed hprofile)
  have hsimple' := hresolved'.simple (validateProfile_wellFormed hprofile')
  obtain ⟨bytes, hbytes, hsha⟩ := bytes_of_digest hd
  obtain ⟨bytes', hbytes', hsha'⟩ := bytes_of_digest hd'
  by_cases hsame : bytes = bytes'
  · refine .inl ?_
    subst hsame
    have hsorted : (Value.obj p.toDict).sortKeys = (Value.obj q.toDict).sortKeys :=
      sortKeys_eq_of_canonicalJson hsimple.toShallow hsimple'.toShallow hbytes hbytes'
    have hitems : sortedItems p.toDict = sortedItems q.toDict := by
      rw [sortKeys_obj, sortKeys_obj] at hsorted
      exact Value.obj.inj hsorted
    have hq := stores_sortedItems hresolved'
    rw [← hitems] at hq
    exact (stores_sortedItems hresolved).unique hq hresolved.policy hresolved'.policy
  · exact .inr ⟨bytes, bytes', hbytes, hbytes', hsame, hsha.trans hsha'.symm⟩

end

theorem restorePlan_sealed_draft :
    (Value.obj (withoutPolicy draftPlan.toDict)).sortKeys = (Value.obj draftPlan.toDict).sortKeys :=
  (restorePlan_sealed (by decide)
    (show restorePlan zeroPlatform (.obj draftPlan.toDict) draftReviewProfile (.str zeroDigest) =
      .ok draftPlan by decide +kernel)).2.1

end AgentOrch.Execution
