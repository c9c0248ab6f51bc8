import AgentOrch.Framework.JsonKeys
import AgentOrch.Properties.RestoredPlans

/-!
# Plans round-trip through the sealed input

A plan that a request resolved to is restored from what it writes, in whatever order the keys come
back, and from the frame it is rendered into in front of the task.  Two dictionaries accepted under
one digest hold one plan, or collide under SHA-256.
-/

namespace AgentOrch.Execution

open Py Json

/-! ## Resolved plans -/

section
variable {pf : Platform} {profile : Profile} {defaults : Defaults} {p q : ExecutionPlan}
  {request : Value}

/-- What a request resolves to, the profile can resolve to. -/
lemma resolved_of_resolveRequest (hkeyed : request.wellKeyed = true)
    (h : resolveRequest pf request profile defaults = .ok p) : Resolved profile p := by
  obtain ⟨items, rfl, hresolves⟩ := resolveRequest_eq_ok.mp h
  obtain ⟨stages, hstages, hcovers, hcovered, hfound⟩ := hresolves.stages
  have hget : dictGet "stages" items = some (.obj stages) := by
    rw [dictGet_of_mem_keys (hresolves.required _ (by decide)), hstages]
  have hnodup := nodup_stages hkeyed hget
  have hchosen := (resolveStages_nil hnodup).mp hfound
  have hnames := dictKeys_of_forall₂ (hchosen.imp fun _ _ h => h.1)
  refine ⟨hresolves.works, hresolves.serieses, hnames ▸ hnodup, ?_, ?_, ?_,
    hresolves.policyVersion⟩
  · intro name
    rw [← hnames]
    exact ⟨hcovered name, hcovers name⟩
  · intro c hc
    obtain ⟨s, -, hname, hresolve⟩ := forall₂_right hchosen c hc
    obtain ⟨_, -, -, hsound⟩ := resolveStage_eq_ok.mp hresolve
    rw [← hname]
    exact hsound
  · have hdigest := hresolves.digest
    by_cases hused : usesDefault p.stages = true
    · rw [if_pos hused] at hdigest
      obtain ⟨bytes, -, hdefaults⟩ := hdigest
      rw [hused, hdefaults]
      exact if_pos (pf.sha256_hex bytes)
    · rw [if_neg hused] at hdigest
      rw [Bool.eq_false_iff.mpr hused, hdigest]
      rfl

/-! ## Plans in key order -/

/-- The plan with its stages in key order; plans are equal when these are. -/
def ExecutionPlan.sorted (p : ExecutionPlan) : ExecutionPlan :=
  { p with stages := sortedDict p.stages }

lemma stages_obj (p : ExecutionPlan) :
    (Value.obj (p.stages.map fun s => (s.1, Value.obj s.2.toDict))).sortKeys =
      .obj ((sortedDict p.stages).map fun s => (s.1, (Value.obj s.2.toDict).sortKeys)) := by
  rw [sortKeys_obj, sortedItems_eq, List.map_map]
  exact congrArg Value.obj
    (map_sortedDict (fun _ (c : ExecutionChoice) => (Value.obj c.toDict).sortKeys) p.stages).symm

/-- Sorting the stages of a plan does not show in what is written with sorted keys. -/
lemma sortKeys_sorted (p : ExecutionPlan) :
    (Value.obj p.sorted.toDict).sortKeys = (Value.obj p.toDict).sortKeys := by
  have hstages : (Value.obj (p.sorted.stages.map fun s => (s.1, Value.obj s.2.toDict))).sortKeys =
      (Value.obj (p.stages.map fun s => (s.1, Value.obj s.2.toDict))).sortKeys := by
    rw [stages_obj, stages_obj, ExecutionPlan.sorted, sortedDict_sortedDict]
  have hpairs : sortPairs p.sorted.toDict = sortPairs p.toDict := by
    simp only [ExecutionPlan.toDict, List.cons_append, List.nil_append, sortPairs, hstages]
    rfl
  rw [sortKeys_obj, sortKeys_obj, sortedItems, sortedItems, hpairs]

lemma digest_sorted (pf : Platform) (p : ExecutionPlan) : p.sorted.digest pf = p.digest pf := by
  unfold ExecutionPlan.digest canonicalJson Runtime.dumpsSorted Json.dumps
  rw [sortKeys_sorted]

lemma Resolved.sorted (h : Resolved profile p) : Resolved profile p.sorted := by
  have hused : usesDefault (sortedDict p.stages) = usesDefault p.stages := by
    rw [Bool.eq_iff_iff, usesDefault, usesDefault, List.any_eq_true, List.any_eq_true]
    simp only [mem_sortedDict]
  refine ⟨h.work, h.series, nodup_sortedDict h.nodup, ?_, ?_, ?_, h.policy⟩
  · intro name
    rw [← h.covers]
    exact mem_dictKeys_sortedDict
  · exact fun s hs => h.choices s (mem_sortedDict.mp hs)
  · show restoredDefaults (usesDefault (sortedDict p.stages)) _ = _
    rw [hused]
    exact h.defaults

/-- A plan stores itself. -/
lemma stores_toDict (h : Resolved profile p) : Stores p.toDict p := by
  refine ⟨fun _ _ _ => rfl, ?_, _, rfl, ?_⟩
  · intro v hv
    rw [Option.mem_def, dictGet_eq_none] at hv
    · cases hv
    · rw [mem_dictKeys_plan h.policy]
      decide
  · rw [List.forall₂_map_left_iff, List.forall₂_same]
    exact fun s _ => ⟨rfl, s.2.toDict, rfl, fun _ => rfl⟩

/-- A choice is stored by its items in any order. -/
lemma storesChoice_sortedItems (c : ExecutionChoice) : StoresChoice (sortedItems c.toDict) c := by
  have hnodup : (dictKeys c.toDict).Nodup := by
    rw [dictKeys_toDict]
    decide
  have hscalar : ∀ o, (optionValue o).sortKeys = optionValue o := by
    intro o
    cases o <;> rfl
  refine storesChoice_iff.mpr ⟨?_, ?_, ?_⟩
  · exact fun k hk => mem_dictKeys_sortedItems.mpr hk
  · exact fun k hk => mem_dictKeys_sortedItems.mp hk
  · intro k hk
    rw [getValue_sortedItems hnodup]
    simp only [storedChoiceKeys, List.mem_cons, List.not_mem_nil, or_false] at hk
    rcases hk with rfl | rfl | rfl | rfl | rfl | rfl | rfl | rfl
    · rfl
    · rfl
    · exact hscalar c.requestedModel
    · exact hscalar c.requestedEffort
    · rfl
    · rfl
    · rfl
    · rfl

/-- With its keys in order, it stores the plan with its stages in order. -/
lemma stores_sortedItems (h : Resolved profile p) : Stores (sortedItems p.toDict) p.sorted := by
  have hnodup : (dictKeys p.toDict).Nodup := by
    rw [dictKeys_plan p h.policy]
    decide
  have hscalar : ∀ o, (optionValue o).sortKeys = optionValue o := by
    intro o
    cases o <;> rfl
  refine ⟨?_, ?_, (sortedDict p.stages).map fun s => (s.1, (Value.obj s.2.toDict).sortKeys), ?_, ?_⟩
  · intro key hstages _
    rw [dictGet_sortedItems hnodup]
    by_cases hkey : key ∈ snapshotKeys
    · simp only [snapshotKeys, List.mem_cons, List.not_mem_nil, or_false] at hkey
      rcases hkey with rfl | rfl | rfl | rfl | rfl
      · rfl
      · rfl
      · rfl
      · exact absurd rfl hstages
      · exact congrArg some (hscalar p.defaultsDigest)
    · have hnot : key ∉ dictKeys p.toDict := fun hmem => hkey ((mem_dictKeys_plan h.policy).mp hmem)
      have hnot' : key ∉ dictKeys p.sorted.toDict :=
        fun hmem => hkey ((mem_dictKeys_plan h.policy).mp hmem)
      rw [dictGet_eq_none hnot, dictGet_eq_none hnot']
      rfl
  · intro v hv
    have hnot : (("policy_version" : Text)) ∉ dictKeys (sortedItems p.toDict) := by
      rw [mem_dictKeys_sortedItems, mem_dictKeys_plan h.policy]
      decide
    rw [dictGet_eq_none hnot] at hv
    cases hv
  · rw [dictGet_sortedItems hnodup]
    exact congrArg some (stages_obj p)
  · rw [List.forall₂_map_left_iff]
    refine List.forall₂_same.mpr fun s _ => ⟨rfl, sortedItems s.2.toDict, ?_, ?_⟩
    · exact sortKeys_obj _
    · exact storesChoice_sortedItems s.2

end

/-! ## What a plan is made of -/

/-- A text in ASCII without a `<`. -/
def IsPlain (t : Text) : Prop := ∀ c ∈ t, c.val < 0x80 ∧ c ≠ 0x3C

instance decidableIsPlain (t : Text) : Decidable (IsPlain t) := List.decidableBAll _ t

section
variable {pf : Platform} {profile : Profile} {p : ExecutionPlan} {name t : Text}
  {c : ExecutionChoice}

lemma isPlain_of_isAlphanumeric {c : CodePoint} (h : isAlphanumeric c = true) :
    c.val < 0x80 ∧ c ≠ 0x3C := by
  simp only [isAlphanumeric, isAsciiLetter, isAsciiDigit, Bool.or_eq_true, Bool.and_eq_true,
    decide_eq_true_eq] at h
  refine ⟨by omega, ?_⟩
  rintro rfl
  have hval : (0x3C : CodePoint).val = 0x3C := rfl
  omega

lemma isPlain_of_isToken (h : isToken t = true) : IsPlain t := by
  have hpunctuation : IsPlain "._:/-" := by decide
  simp only [isToken, Bool.and_eq_true, List.all_eq_true, Bool.or_eq_true,
    decide_eq_true_eq] at h
  intro c hc
  rcases h.2 c hc with h | h
  · exact isPlain_of_isAlphanumeric h
  · exact hpunctuation c h

lemma isPlain_of_isIdentifier (h : isIdentifier t = true) : IsPlain t := by
  have halphanumeric : ∀ c : CodePoint, isAsciiLetter c = true → isAlphanumeric c = true :=
    fun c h => by rw [isAlphanumeric, h, Bool.true_or]
  cases t with
  | nil => cases h
  | cons d t =>
      simp only [isIdentifier, Bool.and_eq_true, List.all_eq_true, Bool.or_eq_true, beq_iff_eq] at h
      refine List.forall_mem_cons.mpr ⟨isPlain_of_isAlphanumeric (halphanumeric d h.1), ?_⟩
      intro c hc
      rcases h.2 c hc with ((h | h) | rfl) | rfl
      · exact isPlain_of_isAlphanumeric (halphanumeric c h)
      · exact isPlain_of_isAlphanumeric (by rw [isAlphanumeric, h, Bool.or_true])
      · decide
      · decide

lemma isPlain_of_isHexDigest (h : isHexDigest t = true) : IsPlain t := by
  simp only [isHexDigest, Bool.and_eq_true, List.all_eq_true] at h
  intro c hc
  have hdigit := h.2 c hc
  simp only [isHexDigit, isAsciiDigit, Bool.or_eq_true, Bool.and_eq_true,
    decide_eq_true_eq] at hdigit
  refine ⟨by omega, ?_⟩
  rintro rfl
  have hval : (0x3C : CodePoint).val = 0x3C := rfl
  omega

lemma encodable_of_isPlain (h : IsPlain t) : Py.Encodable t := by
  intro c hc
  have hascii := (h c hc).1
  simp only [isSurrogate, Bool.and_eq_false_iff, decide_eq_false_iff_not]
  omega

lemma simple_optionValue {n : ℕ} {o : Option Text} (h : ∀ t ∈ o, IsPlain t) :
    Simple IsPlain n (optionValue o) := by
  cases o with
  | none => exact simple_null _ n
  | some t => exact simple_str (h t rfl)

/-- A sound choice writes plain texts only. -/
lemma ChoiceSound.simple (h : ChoiceSound profile name c) :
    Simple IsPlain 1 (.obj c.toDict) := by
  have hroles : ∀ r ∈ executionV1.roles, IsPlain r.1 ∧ IsPlain r.2 := by decide
  have hefforts : ∀ e ∈ efforts, IsPlain e := by decide
  have hkeys : (dictKeys c.toDict).Nodup ∧ ∀ k ∈ dictKeys c.toDict, IsPlain k := by
    rw [dictKeys_toDict]
    decide
  have hsource : ∀ o, IsPlain (source o) := by
    have hboth : IsPlain "explicit" ∧ IsPlain "role_default" := by decide
    intro o
    unfold source
    split_ifs
    · exact hboth.1
    · exact hboth.2
  obtain ⟨hrole, hprovider⟩ := hroles _ (mem_of_dictGet h.provider)
  refine simple_obj hkeys.1 hkeys.2 ?_
  simp only [ExecutionChoice.toDict, List.forall_mem_cons]
  refine ⟨simple_str hrole, simple_str hprovider, simple_optionValue fun m hm => ?_,
    simple_optionValue fun e he => ?_, simple_str (isPlain_of_isToken h.model),
    simple_str (hefforts _ h.effort), simple_str (hsource _), simple_str (hsource _),
    fun _ hmem => absurd hmem List.not_mem_nil⟩
  · rw [h.requestedModel m hm]
    exact isPlain_of_isToken h.model
  · rw [h.requestedEffort e he]
    exact hefforts _ h.effort

/-- So does the plan it is part of. -/
lemma Resolved.simple (h : Resolved profile p) (hprofile : profile.WellFormed) :
    Simple IsPlain 3 (.obj p.toDict) := by
  have hkeys : (dictKeys p.toDict).Nodup ∧ ∀ k ∈ dictKeys p.toDict, IsPlain k := by
    rw [dictKeys_plan p h.policy]
    decide
  have hnames : dictKeys (p.stages.map fun s => (s.1, Value.obj s.2.toDict)) =
      dictKeys p.stages := by
    rw [dictKeys, dictKeys, List.map_map]
    rfl
  have hstages : Simple IsPlain 2 (.obj (p.stages.map fun s => (s.1, .obj s.2.toDict))) := by
    refine simple_obj (hnames ▸ h.nodup) ?_ ?_
    · intro name hname
      rw [hnames, h.covers, workingStages] at hname
      obtain ⟨s, hs, rfl⟩ := List.mem_map.mp hname
      obtain ⟨hself, hwell⟩ := hprofile.named s.1 s.2 (List.mem_filter.mp hs).1
      rw [← hself]
      exact isPlain_of_isIdentifier hwell.identifier
    · intro s hs
      obtain ⟨d, hd, rfl⟩ := List.mem_map.mp hs
      exact (h.choices d hd).simple
  have hdigest : ∀ d ∈ p.defaultsDigest, IsPlain d := by
    intro d hd
    have hdefaults := h.defaults
    rw [Option.mem_def.mp hd] at hdefaults
    cases hused : usesDefault p.stages with
    | false =>
        rw [hused] at hdefaults
        cases hdefaults
    | true =>
        rw [hused] at hdefaults
        unfold restoredDefaults at hdefaults
        simp only [optionValue] at hdefaults
        split_ifs at hdefaults with hhex
        exact isPlain_of_isHexDigest hhex
  refine simple_obj hkeys.1 hkeys.2 ?_
  rw [ExecutionPlan.toDict, h.policy]
  simp only [Option.map_none, Option.toList_none, List.append_nil, List.forall_mem_cons]
  exact ⟨simple_int (by decide), simple_str (isPlain_of_isToken h.work.1),
    simple_str (isPlain_of_isToken h.series.1), simple_optionValue hdigest, hstages,
    fun _ hmem => absurd hmem List.not_mem_nil⟩

/-- Every plan has a digest. -/
lemma Resolved.digest (h : Resolved profile p) (hprofile : profile.WellFormed)
    (hroom : 3 ≤ pf.dumpsDepth) : ∃ d, p.digest pf = .ok d ∧ isHexDigest d = true := by
  have hsimple := h.simple hprofile
  have hencodable : Py.Encodable ((Value.obj p.toDict).sortKeys.compact pf.floatRepr) := by
    rw [compact_eq_written]
    refine encodable_written encodable_nil pf.floatRepr_encodable _ (encodable_of_strings _ ?_)
    exact fun s hs => encodable_of_isPlain (hsimple.sortKeys.strings s hs)
  have hbytes : ∃ bytes, canonicalJson pf.toRuntime (.obj p.toDict) = .ok bytes := by
    rw [canonicalJson, Runtime.dumpsSorted, hsimple.dumps hroom]
    unfold encoded encodeStrict
    exact ⟨_, by rw [returned_bind, if_pos hencodable]⟩
  obtain ⟨bytes, hbytes⟩ := hbytes
  refine ⟨pf.sha256 bytes, ?_, pf.sha256_hex bytes⟩
  rw [ExecutionPlan.digest, hbytes]
  rfl

end

end AgentOrch.Execution
