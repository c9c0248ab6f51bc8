import AgentOrch.Construction.Envelope
import AgentOrch.Framework.JsonLayout
import AgentOrch.Framework.JsonShape

/-!
# The envelope block

The writer of the block, and what its validator accepts.  The validator looks a provenance up in a
`frozenset`, so a list or an object in that place is not refused: it has no hash.  `AxisValid` says
what an axis must be, and `AxisStuck` where the look-up raises instead.
-/

namespace AgentOrch

open Py Json

/-! ## The writer -/

/-- `json.dumps(v, ensure_ascii=False, indent=2, sort_keys=True)` -/
def Runtime.dumpsIndented (rt : Runtime) (v : Value) : Except Exc Text :=
  match v.sortKeys.lenientRefusal rt.dumpsDepth with
  | some .depth => .error .recursionError
  | some _ => .error (.valueError "Exceeds the limit (4300 digits) for integer string conversion")
  | none => .ok (v.sortKeys.laid (.indented 2 rt.floatRepr) 0)

def renderEnvelopeBlock (rt : Runtime) (envelope : Value) : Except Exc Text := do
  let _ ← validateEnvelope rt envelope
  let body ← rt.dumpsIndented envelope
  return envelopeBegin ++ "\n" ++ body ++ "\n" ++ envelopeEnd

/-! ## What an axis must be -/

/-- The value is a provenance the engine knows. -/
def isMemberSource : Value → Bool
  | .str s => s ∈ envelopeMemberSources
  | _ => false

/-- `hash(value)` raises. -/
def isUnhashable : Value → Bool
  | .arr _ | .obj _ => true
  | _ => false

def isSafeDefault : Value → Bool
  | .str s => s = ("safe_default" : Text)
  | _ => false

/-- The state of an axis and its `default_applied` agree. -/
structure AxisState (axis state : Text) (defaultApplied : Bool) : Prop where
  known : state ∈ (["declared", "semantically_silent"] : List Text)
  agrees : defaultApplied = true ↔ state = ("semantically_silent" : Text)
  targets : axis = ("task_owned_write_targets" : Text) → state = ("declared" : Text)

/-- What an axis must be before its provenances are looked up: its state is `state`, and `sources`
are its provenances in the order of the look-ups. -/
structure AxisShape (axis : Text) (entry : Value) (state : Text) (sources : List Value) : Prop where
  shape : ∃ items applied, entry = .obj items ∧ keysAre items envelopeAxisKeys = true ∧
    dictGet "state" items = some (.str state) ∧
    dictGet "default_applied" items = some (.bool applied) ∧ AxisState axis state applied ∧
    (axis = envelopeEnumAxis → getValue "value" items = .str "user_decision" ∧
      sources = [getValue "source" items]) ∧
    (axis ≠ envelopeEnumAxis → ∃ values names members, getValue "value" items = .arr values ∧
      stringItems values = some names ∧ names.Nodup ∧ getValue "source" items = .obj members ∧
      keysAre members names = true ∧ sources = members.map Prod.snd)

/-- The members of an axis that declares something are not all safe defaults. -/
def Declares (axis state : Text) (sources : List Value) : Prop :=
  axis ≠ envelopeEnumAxis → state = ("declared" : Text) → sources ≠ [] →
    ∃ source ∈ sources, isSafeDefault source = false

/-- What the validator accepts of an axis. -/
def AxisValid (axis : Text) (entry : Value) : Prop :=
  ∃ state sources, AxisShape axis entry state sources ∧
    (∀ source ∈ sources, isMemberSource source = true) ∧ Declares axis state sources

/-- The first provenance that is not known has no hash. -/
def AxisStuck (axis : Text) (entry : Value) : Prop :=
  ∃ state before source after, AxisShape axis entry state (before ++ source :: after) ∧
    (∀ source ∈ before, isMemberSource source = true) ∧ isUnhashable source = true

/-- The envelope error of a check that does not hold. -/
def IsEnvelopeError {α : Type} (x : Except Exc α) : Prop := ∃ m, x = .error (.envelopeError m)

section
variable {α : Type} {rt : Runtime} {axis : Text} {entry : Value}

/-- Unless it ends in an envelope error, a check holds and the rest follows. -/
lemma passed_of_not {condition : Bool} {m : Text} {f : Unit → Except Exc α}
    (h : ¬ IsEnvelopeError (require condition (.envelopeError m) >>= f)) : condition = true := by
  cases condition with
  | true => rfl
  | false => exact absurd ⟨m, rfl⟩ h

/-- One look-up: the provenance is known, is refused, or has no hash. -/
lemma lookup_cases (value : Value) (m : Text) :
    isMemberSource value = true ∧
        (do
          let known ← inFrozenset value envelopeMemberSources
          require known (.envelopeError m)) = .ok () ∨
      isMemberSource value = false ∧ isUnhashable value = false ∧
        (do
          let known ← inFrozenset value envelopeMemberSources
          require known (.envelopeError m)) = .error (.envelopeError m) ∨
      isMemberSource value = false ∧ isUnhashable value = true ∧ ∃ m',
        (do
          let known ← inFrozenset value envelopeMemberSources
          require known (.envelopeError m)) = .error (.typeError m') := by
  cases value with
  | arr items => exact .inr (.inr ⟨rfl, rfl, _, rfl⟩)
  | obj items => exact .inr (.inr ⟨rfl, rfl, _, rfl⟩)
  | str s =>
      by_cases hs : s ∈ envelopeMemberSources
      · exact .inl ⟨by simp [isMemberSource, hs], by simp [inFrozenset, hs, require]; rfl⟩
      · refine .inr (.inl ⟨by simp [isMemberSource, hs], rfl, ?_⟩)
        simp [inFrozenset, hs, require]
        rfl
  | _ => exact .inr (.inl ⟨rfl, rfl, rfl⟩)

/-! ## Provenances in order -/

lemma validateSources_known {members : List (Text × Value)}
    (h : ∀ p ∈ members, isMemberSource p.2 = true) :
    validateSources rt axis members = .ok (members.all fun p => isSafeDefault p.2) := by
  induction members with
  | nil => rfl
  | cons p members ih =>
      obtain ⟨member, provenance⟩ := p
      obtain ⟨hp, hmembers⟩ := List.forall_mem_cons.mp h
      have hrest := ih hmembers
      cases provenance with
      | str s =>
          have hs : s ∈ envelopeMemberSources := by simpa [isMemberSource] using hp
          simp [validateSources, inFrozenset, hs, hrest, require, isSafeDefault, bind, Except.bind,
            pure, Except.pure]
      | _ => cases hp

lemma validateSources_stuck (rt : Runtime) (axis : Text) {members : List (Text × Value)}
    {before after : List Value} {source : Value}
    (hmembers : members.map Prod.snd = before ++ source :: after)
    (hbefore : ∀ v ∈ before, isMemberSource v = true) (hsource : isUnhashable source = true) :
    ∃ m, validateSources rt axis members = .error (.typeError m) := by
  induction members generalizing before with
  | nil => simp at hmembers
  | cons p members ih =>
      obtain ⟨member, provenance⟩ := p
      cases before with
      | nil =>
          obtain ⟨rfl, -⟩ := List.cons.inj hmembers
          cases provenance with
          | arr items => exact ⟨_, rfl⟩
          | obj items => exact ⟨_, rfl⟩
          | _ => cases hsource
      | cons v before =>
          obtain ⟨rfl, htail⟩ := List.cons.inj hmembers
          obtain ⟨hv, hbefore⟩ := List.forall_mem_cons.mp hbefore
          obtain ⟨m, hm⟩ := ih htail hbefore
          cases provenance with
          | str s =>
              have hs : s ∈ envelopeMemberSources := by simpa [isMemberSource] using hv
              refine ⟨m, ?_⟩
              simp [validateSources, inFrozenset, hs, hm, require, bind, Except.bind]
          | _ => cases hv

/-- Unless a provenance is refused, all are known or one of them has no hash. -/
lemma validateSources_cases {members : List (Text × Value)}
    (h : ¬ IsEnvelopeError (validateSources rt axis members)) :
    (∀ p ∈ members, isMemberSource p.2 = true) ∨
      ∃ before source after, members.map Prod.snd = before ++ source :: after ∧
        (∀ v ∈ before, isMemberSource v = true) ∧ isUnhashable source = true := by
  induction members with
  | nil => exact .inl fun p hp => absurd hp List.not_mem_nil
  | cons p members ih =>
      obtain ⟨member, provenance⟩ := p
      have hknown : isMemberSource provenance = true →
          ¬ IsEnvelopeError (validateSources rt axis members) := by
        rintro hp ⟨m, hm⟩
        refine h ⟨m, ?_⟩
        cases provenance with
        | str s =>
            have hs : s ∈ envelopeMemberSources := by simpa [isMemberSource] using hp
            simp [validateSources, inFrozenset, hs, hm, require, bind, Except.bind]
        | _ => cases hp
      by_cases hp : isMemberSource provenance = true
      · rcases ih (hknown hp) with hall | ⟨before, source, after, hsplit, hbefore, hsource⟩
        · exact .inl (List.forall_mem_cons.mpr ⟨hp, hall⟩)
        · refine .inr ⟨provenance :: before, source, after, ?_, ?_, hsource⟩
          · rw [List.map_cons, hsplit]
            rfl
          · exact List.forall_mem_cons.mpr ⟨hp, hbefore⟩
      · by_cases hsource : isUnhashable provenance = true
        · exact .inr ⟨[], provenance, members.map Prod.snd, rfl, by simp, hsource⟩
        · refine absurd ?_ h
          cases provenance with
          | arr items => exact absurd rfl hsource
          | obj items => exact absurd rfl hsource
          | str s =>
              have hs : s ∉ envelopeMemberSources := by simpa [isMemberSource] using hp
              simp [validateSources, inFrozenset, hs, require, bind, Except.bind, IsEnvelopeError]
          | _ => simp [validateSources, inFrozenset, require, bind, Except.bind, IsEnvelopeError]

/-! ## An axis -/

lemma validateAxisState_eq (rt : Runtime) (axis : Text) {items : List (Text × Value)}
    {state : Text} {applied : Bool} (hget : dictGet "state" items = some (.str state))
    (happlied : dictGet "default_applied" items = some (.bool applied))
    (hknown : state ∈ (["declared", "semantically_silent"] : List Text))
    (hagrees : applied = true ↔ state = ("semantically_silent" : Text)) :
    validateAxisState rt axis items = .ok state := by
  have hne : ("declared" : Text) ≠ "semantically_silent" := by decide
  have hne' : ("declared" : Text) ≠ "unresolved" := by decide
  have hne'' : ("semantically_silent" : Text) ≠ "unresolved" := by decide
  simp only [List.mem_cons, List.not_mem_nil, or_false] at hknown
  rcases hknown with rfl | rfl
  · have hfalse : applied = false := by simpa [hne] using hagrees
    subst hfalse
    simp [validateAxisState, hget, happlied, require, hne, hne', bind, Except.bind, pure,
      Except.pure]
  · have htrue : applied = true := by simpa using hagrees
    subst htrue
    simp [validateAxisState, hget, happlied, require, hne'', bind, Except.bind, pure, Except.pure]

lemma validateAxisState_cases {items : List (Text × Value)}
    (h : ¬ IsEnvelopeError (validateAxisState rt axis items)) :
    ∃ state applied, dictGet "state" items = some (.str state) ∧
      dictGet "default_applied" items = some (.bool applied) ∧
      state ∈ (["declared", "semantically_silent"] : List Text) ∧
      (applied = true ↔ state = ("semantically_silent" : Text)) := by
  unfold validateAxisState at h
  cases hget : dictGet "state" items with
  | none => exact absurd ⟨_, by rw [hget]; rfl⟩ h
  | some v =>
      rw [hget] at h
      cases v with
      | str state =>
          by_cases hstate : state ∈ (["declared", "semantically_silent", "unresolved"] : List Text)
          · simp only [hstate, if_true] at h
            rw [pure_bind] at h
            have hresolved := passed_of_not h
            rw [hresolved, require_true_bind] at h
            have hmem : state ∈ (["declared", "semantically_silent"] : List Text) := by
              simp only [List.mem_cons, List.not_mem_nil, or_false] at hstate ⊢
              rcases hstate with h | h | h
              · exact .inl h
              · exact .inr h
              · simp [h] at hresolved
            cases happlied : dictGet "default_applied" items with
            | none => exact absurd ⟨_, by rw [happlied]; rfl⟩ h
            | some v =>
                rw [happlied] at h
                cases v with
                | bool applied =>
                    dsimp only at h
                    have hdefault := passed_of_not h
                    rw [hdefault, require_true_bind] at h
                    have hsilent := passed_of_not h
                    refine ⟨state, applied, rfl, rfl, hmem, ?_⟩
                    cases applied <;> simp_all
                | _ => exact absurd ⟨_, rfl⟩ h
          · exact absurd ⟨_, by simp only [hstate, if_false]; rfl⟩ h
      | _ => exact absurd ⟨_, rfl⟩ h

/-- Unless it is refused, an axis has the shape. -/
lemma axisShape_of {axis : Text} (h : ¬ IsEnvelopeError (validateAxis rt axis entry)) :
    ∃ state sources, AxisShape axis entry state sources := by
  cases entry with
  | obj items =>
      have hkeys := passed_of_not h
      rw [validateAxis, hkeys, require_true_bind] at h
      have hnot : ¬ IsEnvelopeError (validateAxisState rt axis items) := by
        rintro ⟨m, hm⟩
        exact h ⟨m, by rw [hm]; rfl⟩
      obtain ⟨state, applied, hstate, happlied, hknown, hagrees⟩ := validateAxisState_cases hnot
      have heq := validateAxisState_eq rt axis hstate happlied hknown hagrees
      rw [heq, returned_bind] at h
      have htargets := passed_of_not h
      rw [htargets, require_true_bind] at h
      have haxis : AxisState axis state applied := by
        refine ⟨hknown, hagrees, fun haxis => ?_⟩
        simpa [haxis] using htargets
      dsimp only at h
      split_ifs at h with henum
      · have hpolicy := passed_of_not h
        refine ⟨state, [getValue "source" items],
          ⟨items, applied, rfl, hkeys, hstate, happlied, haxis, fun _ => ⟨?_, rfl⟩,
            fun hne => absurd henum hne⟩⟩
        show (dictGet "value" items).getD .null = _
        cases hvalue : (dictGet "value" items).getD .null with
        | str s =>
            rw [hvalue] at hpolicy
            rw [of_decide_eq_true hpolicy]
        | _ =>
            rw [hvalue] at hpolicy
            cases hpolicy
      · cases hvalue : (dictGet "value" items).getD .null with
        | arr values =>
            rw [hvalue] at h
            dsimp only at h
            cases hnames : stringItems values with
            | none => exact absurd ⟨_, by rw [hnames]; rfl⟩ h
            | some names =>
                rw [hnames] at h
                dsimp only at h
                have hnodup := passed_of_not h
                rw [hnodup, require_true_bind] at h
                cases hsource : (dictGet "source" items).getD .null with
                | obj members =>
                    rw [hsource] at h
                    dsimp only at h
                    have hmembers := passed_of_not h
                    exact ⟨state, members.map Prod.snd,
                      ⟨items, applied, rfl, hkeys, hstate, happlied, haxis,
                        fun haxis => absurd haxis henum,
                        fun _ => ⟨values, names, members, hvalue, hnames,
                          of_decide_eq_true hnodup, hsource, hmembers, rfl⟩⟩⟩
                | _ => exact absurd ⟨_, by rw [hsource]; rfl⟩ h
        | _ => exact absurd ⟨_, by rw [hvalue]; rfl⟩ h
  | _ => exact absurd ⟨_, rfl⟩ h

/-- An axis of the shape is decided by its provenances: the policy by its one. -/
lemma validateAxis_policy (rt : Runtime) {state : Text} {sources : List Value}
    (h : AxisShape envelopeEnumAxis entry state sources) :
    ∃ source m, sources = [source] ∧ validateAxis rt envelopeEnumAxis entry = (do
      let known ← inFrozenset source envelopeMemberSources
      require known (.envelopeError m)) := by
  obtain ⟨items, applied, rfl, hkeys, hstate, happlied, haxis, hpolicy, -⟩ := h.shape
  obtain ⟨hvalue, hsources⟩ := hpolicy rfl
  have heq := validateAxisState_eq rt envelopeEnumAxis hstate happlied
    haxis.known haxis.agrees
  have hne : decide (envelopeEnumAxis ≠ ("task_owned_write_targets" : Text)) = true := by decide
  have hvalue : (dictGet "value" items).getD .null = .str "user_decision" := hvalue
  refine ⟨_, "scope_expansion_policy has unknown source " ++
    reprValue rt (getValue "source" items), hsources, ?_⟩
  rw [validateAxis, hkeys, require_true_bind, heq, returned_bind, hne, Bool.true_or,
    require_true_bind]
  dsimp only
  rw [if_pos rfl, hvalue]
  dsimp only
  rw [decide_eq_true rfl, require_true_bind]
  rfl

/-- Every other axis by those of its members. -/
lemma validateAxis_members (rt : Runtime) {axis state : Text} {sources : List Value}
    (h : AxisShape axis entry state sources) (henum : axis ≠ envelopeEnumAxis) :
    ∃ (members : List (Text × Value)) (m : Text), sources = members.map Prod.snd ∧
      validateAxis rt axis entry = (do
        let defaults ← validateSources rt axis members
        require (!(state = ("declared" : Text) && defaults && !members.isEmpty))
          (.envelopeError m)) := by
  obtain ⟨items, applied, rfl, hkeys, hstate, happlied, haxis, -, hmembers⟩ := h.shape
  obtain ⟨values, names, members, hvalue, hnames, hnodup, hsource, hsame, hsources⟩ :=
    hmembers henum
  have heq := validateAxisState_eq rt axis hstate happlied
    haxis.known haxis.agrees
  have htargets : (decide (axis ≠ ("task_owned_write_targets" : Text)) ||
      decide (state = ("declared" : Text))) = true := by
    rw [Bool.or_eq_true, decide_eq_true_eq, decide_eq_true_eq]
    exact (Classical.em _).imp_right fun h => haxis.targets (not_not.mp h)
  have hvalue : (dictGet "value" items).getD .null = .arr values := hvalue
  have hsource : (dictGet "source" items).getD .null = .obj members := hsource
  refine ⟨members, "envelope axis " ++ axis ++ " is declared but every member is a safe default",
    hsources, ?_⟩
  rw [validateAxis, hkeys, require_true_bind, heq, returned_bind, htargets, require_true_bind]
  dsimp only
  rw [if_neg henum, hvalue]
  dsimp only
  rw [hnames]
  dsimp only
  rw [decide_eq_true hnodup, require_true_bind, hsource]
  dsimp only
  rw [hsame, require_true_bind]

/-- A valid axis passes. -/
lemma AxisValid.validates {axis : Text} (h : AxisValid axis entry) :
    validateAxis rt axis entry = .ok () := by
  obtain ⟨state, sources, hshape, hknown, hdeclares⟩ := h
  by_cases henum : axis = envelopeEnumAxis
  · subst henum
    obtain ⟨source, m, rfl, heq⟩ := validateAxis_policy rt hshape
    rw [heq]
    rcases lookup_cases source m with ⟨-, h⟩ | ⟨h, -⟩ | ⟨h, -⟩
    · exact h
    · rw [hknown source List.mem_cons_self] at h
      cases h
    · rw [hknown source List.mem_cons_self] at h
      cases h
  · obtain ⟨members, m, rfl, heq⟩ := validateAxis_members rt hshape henum
    rw [heq, validateSources_known fun p hp => hknown p.2 (List.mem_map_of_mem hp), returned_bind,
      require_eq_ok, Bool.not_eq_true', Bool.and_eq_false_iff, Bool.and_eq_false_iff]
    by_cases hstate : state = ("declared" : Text)
    · cases members with
      | nil => exact .inr rfl
      | cons p members =>
          obtain ⟨source, hsource, hsafe⟩ := hdeclares henum hstate (by simp)
          obtain ⟨q, hq, rfl⟩ := List.mem_map.mp hsource
          exact .inl (.inr (List.all_eq_false.mpr ⟨q, hq, by simp [hsafe]⟩))
    · exact .inl (.inl (decide_eq_false hstate))

/-- At a provenance without a hash the validator raises something else. -/
lemma AxisStuck.raises (rt : Runtime) {axis : Text} (h : AxisStuck axis entry) :
    ∃ m, validateAxis rt axis entry = .error (.typeError m) := by
  obtain ⟨state, before, source, after, hshape, hbefore, hsource⟩ := h
  by_cases henum : axis = envelopeEnumAxis
  · subst henum
    obtain ⟨source', m, hsources, heq⟩ := validateAxis_policy rt hshape
    obtain rfl : source = source' := by
      cases before with
      | nil => exact (List.cons.inj hsources).1
      | cons v before => simp at hsources
    rw [heq]
    rcases lookup_cases source m with ⟨h, -⟩ | ⟨-, h, -⟩ | ⟨-, -, h⟩
    · cases source with
      | arr items => cases h
      | obj items => cases h
      | _ => cases hsource
    · rw [hsource] at h
      cases h
    · exact h
  · obtain ⟨members, m, hsources, heq⟩ := validateAxis_members rt hshape henum
    obtain ⟨m', hm'⟩ := validateSources_stuck rt axis hsources.symm hbefore hsource
    exact ⟨m', by rw [heq, hm']; rfl⟩

/-- Nothing else passes, and nothing else raises but an envelope error. -/
lemma validateAxis_cases {axis : Text} (h : ¬ IsEnvelopeError (validateAxis rt axis entry)) :
    AxisValid axis entry ∨ AxisStuck axis entry := by
  obtain ⟨state, sources, hshape⟩ := axisShape_of h
  by_cases henum : axis = envelopeEnumAxis
  · subst henum
    obtain ⟨source, m, rfl, heq⟩ := validateAxis_policy rt hshape
    rw [heq] at h
    rcases lookup_cases source m with ⟨hknown, -⟩ | ⟨-, -, hrefused⟩ | ⟨-, hsource, -⟩
    · exact .inl ⟨state, [source], hshape, by simpa using hknown, fun hne => absurd rfl hne⟩
    · exact absurd ⟨m, hrefused⟩ h
    · exact .inr ⟨state, [], source, [], hshape, by simp, hsource⟩
  · obtain ⟨members, m, rfl, heq⟩ := validateAxis_members rt hshape henum
    rw [heq] at h
    have hnot : ¬ IsEnvelopeError (validateSources rt axis members) := by
      rintro ⟨m', hm'⟩
      exact h ⟨m', by rw [hm']; rfl⟩
    rcases validateSources_cases hnot with hall | ⟨before, source, after, hsplit, hbefore, hsource⟩
    · refine .inl ⟨state, _, hshape, ?_, ?_⟩
      · intro source hsource
        obtain ⟨p, hp, rfl⟩ := List.mem_map.mp hsource
        exact hall p hp
      · intro _ hstate hne
        rw [validateSources_known hall, returned_bind] at h
        have hdefaults : (!(decide (state = ("declared" : Text)) &&
            (members.all fun p => isSafeDefault p.2) && !members.isEmpty)) = true := by
          by_contra hfalse
          rw [Bool.not_eq_true] at hfalse
          exact h ⟨m, by rw [hfalse]; rfl⟩
        have hmembers : members.isEmpty = false := by
          cases members with
          | nil => exact absurd rfl hne
          | cons p members => rfl
        rw [hmembers, decide_eq_true hstate, Bool.true_and, Bool.not_false, Bool.and_true,
          Bool.not_eq_true', List.all_eq_false] at hdefaults
        obtain ⟨p, hp, hsafe⟩ := hdefaults
        exact ⟨p.2, List.mem_map_of_mem hp, by simpa using hsafe⟩
    · rw [hsplit] at hshape
      exact .inr ⟨state, before, source, after, hshape, hbefore, hsource⟩

end

/-! ## The envelope -/

/-- What the checks before the axes demand of an envelope. -/
structure EnvelopeShape (items : List (Text × Value)) : Prop where
  version : (dictGet "schema_version" items).any (equalsInt · 1) = true
  keys : keysAre items ("schema_version" :: envelopeAxes) = true

/-- What the validator accepts. -/
structure EnvelopeValid (items : List (Text × Value)) : Prop extends EnvelopeShape items where
  axes : ∀ axis ∈ envelopeAxes, AxisValid axis (getValue axis items)

/-- The first axis that is not valid has a provenance without a hash. -/
def EnvelopeStuck (payload : Value) : Prop :=
  ∃ items before axis after, payload = .obj items ∧ EnvelopeShape items ∧
    envelopeAxes = before ++ axis :: after ∧ (∀ a ∈ before, AxisValid a (getValue a items)) ∧
    AxisStuck axis (getValue axis items)

section
variable {rt : Runtime} {items : List (Text × Value)}

lemma validateAxes_valid {axes : List Text} (h : ∀ a ∈ axes, AxisValid a (getValue a items)) :
    validateAxes rt items axes = .ok () := by
  induction axes with
  | nil => rfl
  | cons a axes ih =>
      obtain ⟨ha, haxes⟩ := List.forall_mem_cons.mp h
      have hvalid : validateAxis rt a ((dictGet a items).getD .null) = .ok () := ha.validates
      rw [validateAxes, hvalid, returned_bind, ih haxes]

lemma validateAxes_stuck (rt : Runtime) {axes before after : List Text} {axis : Text}
    (hsplit : axes = before ++ axis :: after)
    (hbefore : ∀ a ∈ before, AxisValid a (getValue a items))
    (hstuck : AxisStuck axis (getValue axis items)) :
    ∃ m, validateAxes rt items axes = .error (.typeError m) := by
  subst hsplit
  induction before with
  | nil =>
      obtain ⟨m, hm⟩ := hstuck.raises rt
      have hm : validateAxis rt axis ((dictGet axis items).getD .null) = .error (.typeError m) := hm
      exact ⟨m, by rw [List.nil_append, validateAxes, hm]; rfl⟩
  | cons a before ih =>
      obtain ⟨ha, hbefore⟩ := List.forall_mem_cons.mp hbefore
      obtain ⟨m, hm⟩ := ih hbefore
      have hvalid : validateAxis rt a ((dictGet a items).getD .null) = .ok () := ha.validates
      exact ⟨m, by rw [List.cons_append, validateAxes, hvalid, returned_bind, hm]⟩

lemma validateAxes_cases {axes : List Text}
    (h : ¬ IsEnvelopeError (validateAxes rt items axes)) :
    (∀ a ∈ axes, AxisValid a (getValue a items)) ∨
      ∃ before axis after, axes = before ++ axis :: after ∧
        (∀ a ∈ before, AxisValid a (getValue a items)) ∧ AxisStuck axis (getValue axis items) := by
  induction axes with
  | nil => exact .inl fun a ha => absurd ha List.not_mem_nil
  | cons a axes ih =>
      rw [validateAxes] at h
      have hnot : ¬ IsEnvelopeError (validateAxis rt a (getValue a items)) := by
        rintro ⟨m, hm⟩
        have hm : validateAxis rt a ((dictGet a items).getD .null) = .error (.envelopeError m) := hm
        exact h ⟨m, by rw [hm]; rfl⟩
      rcases validateAxis_cases hnot with ha | ha
      · have hvalid : validateAxis rt a ((dictGet a items).getD .null) = .ok () := ha.validates
        rw [hvalid, returned_bind] at h
        rcases ih h with hall | ⟨before, axis, after, hsplit, hbefore, hstuck⟩
        · exact .inl (List.forall_mem_cons.mpr ⟨ha, hall⟩)
        · exact .inr ⟨a :: before, axis, after, by rw [hsplit]; rfl,
            List.forall_mem_cons.mpr ⟨ha, hbefore⟩, hstuck⟩
      · exact .inr ⟨[], a, axes, rfl, by simp, ha⟩

lemma EnvelopeShape.validateEnvelope (h : EnvelopeShape items) :
    AgentOrch.validateEnvelope rt (.obj items) = (do
      validateAxes rt items envelopeAxes
      return items) := by
  rw [AgentOrch.validateEnvelope, h.version, require_true_bind]
  dsimp only
  rw [h.keys, require_true_bind]

lemma EnvelopeValid.validates (h : EnvelopeValid items) :
    validateEnvelope rt (.obj items) = .ok items := by
  rw [h.toEnvelopeShape.validateEnvelope, validateAxes_valid h.axes]
  rfl

lemma EnvelopeStuck.raises (rt : Runtime) {payload : Value} (h : EnvelopeStuck payload) :
    ∃ m, validateEnvelope rt payload = .error (.typeError m) := by
  obtain ⟨items, before, axis, after, rfl, hshape, hsplit, hbefore, hstuck⟩ := h
  obtain ⟨m, hm⟩ := validateAxes_stuck rt hsplit hbefore hstuck
  exact ⟨m, by rw [hshape.validateEnvelope, hm]; rfl⟩

/-- Unless it is refused, a payload is valid or the look-ups stick. -/
theorem validateEnvelope_cases {payload : Value}
    (h : ¬ IsEnvelopeError (validateEnvelope rt payload)) :
    (∃ items, payload = .obj items ∧ EnvelopeValid items) ∨ EnvelopeStuck payload := by
  cases payload with
  | obj items =>
      have hversion := passed_of_not h
      rw [AgentOrch.validateEnvelope, hversion, require_true_bind] at h
      dsimp only at h
      have hshape : EnvelopeShape items := ⟨hversion, passed_of_not h⟩
      rw [hshape.keys, require_true_bind] at h
      have hnot : ¬ IsEnvelopeError (validateAxes rt items envelopeAxes) := by
        rintro ⟨m, hm⟩
        exact h ⟨m, by rw [hm]; rfl⟩
      rcases validateAxes_cases hnot with hall | ⟨before, axis, after, hsplit, hbefore, hstuck⟩
      · exact .inl ⟨items, rfl, hshape, hall⟩
      · exact .inr ⟨items, before, axis, after, rfl, hshape, hsplit, hbefore, hstuck⟩
  | _ => exact absurd ⟨_, rfl⟩ h

/-- The validator accepts what is valid, and returns it. -/
theorem validateEnvelope_eq_ok {payload : Value} {envelope : Envelope} :
    validateEnvelope rt payload = .ok envelope ↔
      payload = .obj envelope ∧ EnvelopeValid envelope := by
  constructor
  · intro h
    have hnot : ¬ IsEnvelopeError (validateEnvelope rt payload) := by
      rintro ⟨m, hm⟩
      rw [h] at hm
      cases hm
    rcases validateEnvelope_cases hnot with ⟨items, rfl, hvalid⟩ | hstuck
    · obtain rfl := Except.ok.inj (hvalid.validates.symm.trans h)
      exact ⟨rfl, hvalid⟩
    · obtain ⟨m, hm⟩ := hstuck.raises rt
      rw [h] at hm
      cases hm
  · rintro ⟨rfl, hvalid⟩
    exact hvalid.validates

end

/-! ## What an envelope holds -/

/-- At most `n` containers deep, with short integers, and no float but one that equals `1`. -/
structure Modest (n : ℕ) (v : Value) : Prop where
  depth : v.depth ≤ n
  shortInts : v.shortInts = true
  floats : ∀ x ∈ v.floats, x.eqInt 1 = true

section
variable {n : ℕ}

lemma Modest.mono {m : ℕ} {v : Value} (h : Modest n v) (hle : n ≤ m) : Modest m v :=
  ⟨h.depth.trans hle, h.shortInts, h.floats⟩

lemma modest_str (n : ℕ) (t : Text) : Modest n (.str t) :=
  ⟨Nat.zero_le n, rfl, fun _ hx => absurd hx List.not_mem_nil⟩

lemma modest_bool (n : ℕ) (b : Bool) : Modest n (.bool b) :=
  ⟨Nat.zero_le n, rfl, fun _ hx => absurd hx List.not_mem_nil⟩

lemma modest_obj {items : List (Text × Value)} (h : ∀ p ∈ items, Modest n p.2) :
    Modest (n + 1) (.obj items) := by
  refine ⟨Nat.succ_le_succ (depthPairs_le fun p hp => (h p hp).depth),
    shortIntsPairs_iff.mpr fun p hp => (h p hp).shortInts, ?_⟩
  intro x hx
  obtain ⟨p, hp, hx⟩ := mem_floatsPairs.mp hx
  exact (h p hp).floats x hx

lemma modest_arr {items : List Value} (h : ∀ v ∈ items, Modest n v) :
    Modest (n + 1) (.arr items) := by
  induction items with
  | nil => exact ⟨Nat.succ_le_succ (Nat.zero_le n), rfl, fun _ hx => absurd hx List.not_mem_nil⟩
  | cons v items ih =>
      obtain ⟨hv, hitems⟩ := List.forall_mem_cons.mp h
      have hrest := ih hitems
      refine ⟨Nat.succ_le_succ (max_le hv.depth (Nat.le_of_succ_le_succ hrest.depth)), ?_, ?_⟩
      · show (v.shortInts && shortIntsItems items) = true
        rw [hv.shortInts]
        exact hrest.shortInts
      · intro x hx
        rcases List.mem_append.mp hx with hx | hx
        · exact hv.floats x hx
        · exact hrest.floats x hx

/-- With distinct keys, an object is modest if what it holds under each of its keys is. -/
lemma modest_of_keys {items : List (Text × Value)} {expected : List Text}
    (hnodup : (dictKeys items).Nodup) (hkeys : keysAre items expected = true)
    (h : ∀ key ∈ expected, Modest n (getValue key items)) : Modest (n + 1) (.obj items) := by
  refine modest_obj fun p hp => ?_
  have hget : dictGet p.1 items = some p.2 := dictGet_of_mem hnodup hp
  have hkey := (keysAre_iff.mp hkeys p.1).mp (List.mem_map_of_mem hp)
  have hvalue := h p.1 hkey
  rwa [getValue, hget] at hvalue

lemma modest_equalsInt {v : Value} (h : equalsInt v 1 = true) : Modest n v := by
  cases v with
  | int m =>
      obtain rfl : m = 1 := by simpa [equalsInt] using h
      exact ⟨Nat.zero_le n, by decide, fun _ hx => absurd hx List.not_mem_nil⟩
  | bool b => exact modest_bool n b
  | float x =>
      refine ⟨Nat.zero_le n, rfl, fun y hy => ?_⟩
      rw [List.mem_singleton.mp hy]
      exact h
  | _ => cases h

lemma isMemberSource_str {v : Value} (h : isMemberSource v = true) : ∃ s, v = .str s := by
  cases v with
  | str s => exact ⟨s, rfl⟩
  | _ => cases h

lemma stringItems_str {values : List Value} {names : List Text}
    (h : stringItems values = some names) : values = names.map .str := by
  induction values generalizing names with
  | nil =>
      obtain rfl : [] = names := by simpa [stringItems] using h
      rfl
  | cons v values ih =>
      cases v with
      | str s =>
          rw [stringItems] at h
          split_ifs at h with hs
          obtain ⟨rest, hrest, rfl⟩ := Option.map_eq_some_iff.mp h
          rw [ih hrest]
          rfl
      | _ => cases h

end

section
variable {axis : Text} {entry : Value} {items : List (Text × Value)}

/-- A valid axis is an object of strings, lists of strings and objects of strings. -/
lemma AxisValid.modest (h : AxisValid axis entry) (hkeyed : entry.wellKeyed = true) :
    Modest 2 entry := by
  obtain ⟨state, sources, hshape, hknown, -⟩ := h
  obtain ⟨items, applied, rfl, hkeys, hstate, happlied, -, hpolicy, hmembers⟩ := hshape.shape
  rw [Value.wellKeyed, Bool.and_eq_true, decide_eq_true_eq] at hkeyed
  refine modest_of_keys hkeyed.1 hkeys fun key hkey => ?_
  simp only [envelopeAxisKeys, List.mem_cons, List.not_mem_nil, or_false] at hkey
  rcases hkey with rfl | rfl | rfl | rfl
  · rw [getValue, hstate]
    exact modest_str 1 state
  · by_cases henum : axis = envelopeEnumAxis
    · rw [(hpolicy henum).1]
      exact modest_str 1 _
    · obtain ⟨values, names, members, hvalue, hnames, -⟩ := hmembers henum
      rw [hvalue, stringItems_str hnames]
      refine modest_arr fun v hv => ?_
      obtain ⟨s, -, rfl⟩ := List.mem_map.mp hv
      exact modest_str 0 s
  · rw [getValue, happlied]
    exact modest_bool 1 applied
  · by_cases henum : axis = envelopeEnumAxis
    · obtain ⟨-, rfl⟩ := hpolicy henum
      obtain ⟨s, hs⟩ := isMemberSource_str (hknown _ List.mem_cons_self)
      rw [hs]
      exact modest_str 1 s
    · obtain ⟨values, names, members, -, -, -, hsource, -, rfl⟩ := hmembers henum
      rw [hsource]
      refine modest_obj fun p hp => ?_
      obtain ⟨s, hs⟩ := isMemberSource_str (hknown p.2 (List.mem_map_of_mem hp))
      rw [hs]
      exact modest_str 0 s

lemma wellKeyed_getValue (hkeyed : (Value.obj items).wellKeyed = true) (key : Text) :
    (getValue key items).wellKeyed = true := by
  rw [Value.wellKeyed, Bool.and_eq_true] at hkeyed
  unfold getValue
  cases hget : dictGet key items with
  | none => rfl
  | some v => exact wellKeyedPairs_iff.mp hkeyed.2 (key, v) (mem_of_dictGet hget)

lemma EnvelopeValid.modest (h : EnvelopeValid items) (hkeyed : (Value.obj items).wellKeyed = true) :
    Modest 3 (.obj items) := by
  have hnodup := hkeyed
  rw [Value.wellKeyed, Bool.and_eq_true, decide_eq_true_eq] at hnodup
  refine modest_of_keys hnodup.1 h.keys fun key hkey => ?_
  rcases List.mem_cons.mp hkey with rfl | hkey
  · have hversion := h.version
    unfold getValue
    cases hget : dictGet "schema_version" items with
    | none =>
        rw [hget] at hversion
        cases hversion
    | some v =>
        rw [hget] at hversion
        exact modest_equalsInt hversion
  · exact (h.axes key hkey).modest (wellKeyed_getValue hkeyed key)

/-! ## Reading back -/

lemma sortItems_str (names : List Text) : sortItems (names.map Value.str) = names.map .str := by
  induction names with
  | nil => rfl
  | cons s names ih =>
      rw [List.map_cons, sortItems, ih]
      rfl

/-- With its keys in order, a valid axis is valid. -/
lemma AxisValid.sortKeys (h : AxisValid axis entry) (hkeyed : entry.wellKeyed = true) :
    AxisValid axis entry.sortKeys := by
  obtain ⟨state, sources, hshape, hknown, hdeclares⟩ := h
  obtain ⟨items, applied, rfl, hkeys, hstate, happlied, haxis, hpolicy, hmembers⟩ := hshape.shape
  rw [Value.wellKeyed, Bool.and_eq_true, decide_eq_true_eq] at hkeyed
  have hnodup := hkeyed.1
  have hget : ∀ key, getValue key (sortedItems items) = (getValue key items).sortKeys :=
    getValue_sortedItems hnodup
  have hstate' : dictGet "state" (sortedItems items) = some (.str state) := by
    rw [dictGet_sortedItems hnodup, hstate]
    rfl
  have happlied' : dictGet "default_applied" (sortedItems items) = some (.bool applied) := by
    rw [dictGet_sortedItems hnodup, happlied]
    rfl
  have hkeys' : keysAre (sortedItems items) envelopeAxisKeys = true := by
    rwa [keysAre_sortedItems]
  rw [sortKeys_obj]
  by_cases henum : axis = envelopeEnumAxis
  · obtain ⟨hvalue, rfl⟩ := hpolicy henum
    refine ⟨state, [getValue "source" items], ⟨sortedItems items, applied, rfl, hkeys', hstate',
      happlied', haxis, fun _ => ⟨?_, ?_⟩, fun hne => absurd henum hne⟩, hknown, hdeclares⟩
    · rw [hget, hvalue]
      rfl
    · obtain ⟨s, hs⟩ := isMemberSource_str (hknown _ List.mem_cons_self)
      rw [hget, hs]
      rfl
  · obtain ⟨values, names, members, hvalue, hnames, hdistinct, hsource, hsame, rfl⟩ :=
      hmembers henum
    have hmap : (sortPairs members).map Prod.snd = members.map Prod.snd := by
      rw [sortPairs_eq_map, List.map_map]
      refine List.map_congr_left fun p hp => ?_
      obtain ⟨s, hs⟩ := isMemberSource_str (hknown p.2 (List.mem_map_of_mem hp))
      simp [hs, Value.sortKeys]
    have hperm : ((sortedItems members).map Prod.snd).Perm (members.map Prod.snd) := by
      rw [← hmap]
      exact (List.perm_insertionSort keyLe (sortPairs members)).map Prod.snd
    refine ⟨state, (sortedItems members).map Prod.snd, ⟨sortedItems items, applied, rfl, hkeys',
      hstate', happlied', haxis, fun haxis => absurd haxis henum, fun _ => ⟨values, names,
      sortedItems members, ?_, hnames, hdistinct, ?_, ?_, rfl⟩⟩, ?_, ?_⟩
    · rw [hget, hvalue, stringItems_str hnames, Value.sortKeys, sortItems_str]
    · rw [hget, hsource, sortKeys_obj]
    · rwa [keysAre_sortedItems]
    · exact fun source hsource => hknown source (hperm.mem_iff.mp hsource)
    · intro hne hdeclared hsome
      have hsome' : members.map Prod.snd ≠ [] := fun hnil => hsome (List.perm_nil.mp (hnil ▸ hperm))
      obtain ⟨source, hsource, hsafe⟩ := hdeclares hne hdeclared hsome'
      exact ⟨source, hperm.mem_iff.mpr hsource, hsafe⟩

/-- With its keys in order, a valid envelope is valid. -/
lemma EnvelopeValid.sorted (h : EnvelopeValid items)
    (hkeyed : (Value.obj items).wellKeyed = true) : EnvelopeValid (sortedItems items) := by
  have hnodup := hkeyed
  rw [Value.wellKeyed, Bool.and_eq_true, decide_eq_true_eq] at hnodup
  refine ⟨⟨?_, ?_⟩, ?_⟩
  · rw [dictGet_sortedItems hnodup.1]
    have hversion := h.version
    cases hget : dictGet "schema_version" items with
    | none =>
        rw [hget] at hversion
        cases hversion
    | some v =>
        rw [hget] at hversion
        cases v with
        | arr _ => cases hversion
        | obj _ => cases hversion
        | _ => exact hversion
  · rw [keysAre_sortedItems]
    exact h.keys
  · intro axis haxis
    rw [getValue_sortedItems hnodup.1]
    exact (h.axes axis haxis).sortKeys (wellKeyed_getValue hkeyed axis)

end

end AgentOrch
