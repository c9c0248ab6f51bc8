import AgentOrch.Construction.Dispatch

/-!
# Resolved axes

What the checks of a reply let through.  An axis that is not left unresolved is a declared set whose
members were offered with a quote each, or one of the defaults: nothing where nothing is permitted
without being asked for, and for the behaviours a task may change, words of its scope.
-/

namespace AgentOrch

open Py Json

namespace Intake

/-! ## Steps -/

section
variable {α β : Type}

/-- A sequence returns when its first step returns and the rest does. -/
lemma step_eq_ok {x : Except Failure α} {f : α → Except Failure β} {b : β} :
    x >>= f = .ok b ↔ ∃ a, x = .ok a ∧ f a = .ok b := by
  cases x with
  | error e => simp [bind, Except.bind]
  | ok a => simp [bind, Except.bind]

@[simp] lemma demand_eq_ok {condition : Bool} {message : Text} {u : Unit} :
    demand condition message = .ok u ↔ condition = true := by
  cases condition <;> simp [demand]

@[simp] lemma escaping_eq_ok {x : Except Exc α} {a : α} : escaping x = .ok a ↔ x = .ok a := by
  cases x <;> simp [escaping, Except.mapError]

lemma return_eq_ok {a b : α} : (pure a : Except Failure α) = .ok b ↔ a = b :=
  ⟨Except.ok.inj, fun h => h ▸ rfl⟩

lemma throw_ne_ok {e : Failure} {a : α} : (throw e : Except Failure α) ≠ .ok a := nofun

end

/-! ## The parts of a proposal -/

/-- The members that texts propose: their stripped forms, bounded and distinct. -/
structure IsMembers (raw members : List Text) : Prop where
  stripped : members = raw.map strip
  solid : ∀ t ∈ raw, isBlank t = false
  count : members.length ≤ envelopeMaxMembers
  short : ∀ member ∈ members, member.length ≤ envelopeMaxMemberChars
  nodup : members.Nodup

section
variable {m : Machine} {r : Request} {axis state : Text} {entry : List (Text × Value)}
  {members quotes : List Text} {a : EnvelopeAxis}

lemma textItems_map {items : List Value} {texts : List Text} (h : textItems items = some texts) :
    items = texts.map .str := by
  induction items generalizing texts with
  | nil =>
      obtain rfl := Option.some.inj h
      rfl
  | cons v items ih =>
      cases v with
      | str t =>
          obtain ⟨rest, hrest, rfl⟩ := Option.map_eq_some_iff.mp h
          rw [ih hrest]
          rfl
      | _ => cases h

lemma proposedMembers_eq_ok (h : proposedMembers axis entry = .ok members) :
    ∃ raw, textsOf (getValue "value" entry) = some raw ∧ IsMembers raw members := by
  unfold proposedMembers at h
  split at h
  · cases h
  · next raw hraw =>
    obtain ⟨htexts, hsolid⟩ := Option.filter_eq_some_iff.mp hraw
    obtain ⟨_, hcount, h⟩ := step_eq_ok.mp h
    obtain ⟨_, hshort, h⟩ := step_eq_ok.mp h
    obtain ⟨_, hnodup, h⟩ := step_eq_ok.mp h
    obtain rfl := return_eq_ok.mp h
    rw [demand_eq_ok] at hcount hshort hnodup
    refine ⟨raw, htexts, rfl, ?_, of_decide_eq_true hcount, ?_, of_decide_eq_true hnodup⟩
    · intro t ht
      simpa using List.all_eq_true.mp hsolid t ht
    · intro member hmember
      exact of_decide_eq_true (List.all_eq_true.mp hshort member hmember)

lemma proposedEvidence_eq_ok (h : proposedEvidence axis entry = .ok quotes) :
    textsOf (getValue "evidence" entry) = some quotes := by
  unfold proposedEvidence at h
  split at h
  · cases h
  · next texts htexts =>
    obtain ⟨_, -, h⟩ := step_eq_ok.mp h
    obtain rfl := return_eq_ok.mp h
    exact htexts

lemma checkQuotes_eq_ok {pairs : List (Text × Text)} (h : checkQuotes m r axis pairs = .ok ()) :
    ∀ p ∈ pairs, grounded m p.2 r.blob = true := by
  induction pairs with
  | nil => exact fun p hp => absurd hp List.not_mem_nil
  | cons p pairs ih =>
      obtain ⟨member, quote⟩ := p
      obtain ⟨_, hquote, h⟩ := step_eq_ok.mp h
      exact List.forall_mem_cons.mpr ⟨demand_eq_ok.mp hquote, ih h⟩

/-! ## Write targets -/

/-- The targets so far: distinct, and each the path of a member. -/
structure IsTargets (m : Machine) (worktree : Option Text) (members targets : List Text) :
    Prop where
  nodup : targets.Nodup
  named : ∀ target ∈ targets, ∃ member ∈ members,
    normaliseWriteTarget m member worktree = .ok (some target)

lemma writeTargets_eq_ok {worktree : Option Text} {before targets : List Text}
    (htargets : IsTargets m worktree before targets) {final : List Text}
    (h : writeTargets m worktree targets members = .ok (.ok final)) :
    IsTargets m worktree (before ++ members) final := by
  induction members generalizing before targets with
  | nil =>
      obtain rfl := Except.ok.inj (Except.ok.inj h)
      rwa [List.append_nil]
  | cons member members ih =>
      obtain ⟨target, htarget, h⟩ := step_eq_ok.mp h
      cases target with
      | none => cases h
      | some target =>
          have hnext : IsTargets m worktree (before ++ [member])
              (if target ∈ targets then targets else targets ++ [target]) := by
            have hwiden : ∀ t ∈ targets, ∃ member' ∈ before ++ [member],
                normaliseWriteTarget m member' worktree = .ok (some t) := by
              intro t ht
              obtain ⟨member', hmember', hpath⟩ := htargets.named t ht
              exact ⟨member', List.mem_append_left _ hmember', hpath⟩
            split_ifs with hmem
            · exact ⟨htargets.nodup, hwiden⟩
            · refine ⟨List.nodup_append.mpr ⟨htargets.nodup, List.nodup_singleton _, ?_⟩, ?_⟩
              · rintro t ht t' ht' rfl
                exact hmem (List.mem_singleton.mp ht' ▸ ht)
              · intro t ht
                rcases List.mem_append.mp ht with ht | ht
                · exact hwiden t ht
                · obtain rfl := List.mem_singleton.mp ht
                  exact ⟨member, List.mem_append_right _ (List.mem_singleton_self _), htarget⟩
          have hfinal := ih hnext h
          rwa [List.append_assoc] at hfinal

/-- A path that is taken as a write target is collapsed. -/
lemma normaliseWriteTarget_normpath {raw target : Text} {worktree : Option Text}
    (h : normaliseWriteTarget m raw worktree = .ok (some target)) :
    PathText.normpath target = target := by
  unfold normaliseWriteTarget at h
  dsimp only at h
  split at h
  · cases h
  · obtain ⟨expanded, -, h⟩ := step_eq_ok.mp h
    obtain ⟨resolved, -, h⟩ := step_eq_ok.mp h
    have h := return_eq_ok.mp h
    split_ifs at h
    obtain rfl := Option.some.inj h
    exact PathText.normpath_normpath resolved

/-! ## Resolved axes -/

/-- What an axis that is resolved to a set holds, by the texts and quotes it was proposed with. -/
inductive Resolved (m : Machine) (r : Request) (axis : Text) (raw quotes : List Text) :
    EnvelopeAxis → Prop
  | declared (hsome : raw ≠ []) (hlength : quotes.length = raw.length)
      (hquotes : ∀ quote ∈ quotes, grounded m quote r.blob = true) (haxis : axis ≠ envelopeWriteAxis) :
      Resolved m r axis raw quotes (declaredAxis (raw.map strip))
  | targets (targets : List Text) (hsome : raw ≠ []) (hlength : quotes.length = raw.length)
      (hquotes : ∀ quote ∈ quotes, grounded m quote r.blob = true) (haxis : axis = envelopeWriteAxis)
      (htargets : IsTargets m r.worktree (raw.map strip) targets) :
      Resolved m r axis raw quotes (declaredAxis targets)
  | noTargets (hnone : raw = []) (haxis : axis = envelopeWriteAxis)
      (happly : r.applyShaped = false) (hpaths : r.sourcesNamePaths = false) :
      Resolved m r axis raw quotes (declaredAxis [])
  | ceiling (haxis : axis ≠ envelopeWriteAxis) : Resolved m r axis raw quotes (silentAxis [])
  | scope (haxis : axis ≠ envelopeWriteAxis) (hceiling : axis ∉ envelopeEmptyDefaultAxes)
      (hscope : ∀ member ∈ raw.map strip, grounded m member r.scopeBlob = true) :
      Resolved m r axis raw quotes (silentAxis (raw.map strip))

lemma unresolvedAxis_state (detail : Text) : (unresolvedAxis detail).state = "unresolved" := rfl

lemma silentProposal_eq_ok {raw : List Text} (h : silentProposal m r axis (raw.map strip) = .ok a)
    (hstate : a.state ≠ ("unresolved" : Text)) : Resolved m r axis raw quotes a := by
  unfold silentProposal at h
  split_ifs at h with haxis hceiling hnone
  · obtain rfl := Except.ok.inj h
    exact absurd (unresolvedAxis_state _) hstate
  · obtain ⟨_, -, h⟩ := step_eq_ok.mp h
    obtain rfl := return_eq_ok.mp h
    exact .ceiling haxis
  · obtain ⟨_, -, h⟩ := step_eq_ok.mp h
    obtain rfl := return_eq_ok.mp h
    exact .ceiling haxis
  · obtain ⟨_, hscope, h⟩ := step_eq_ok.mp h
    obtain rfl := return_eq_ok.mp h
    refine .scope haxis hceiling fun member hmember => ?_
    have hnil := List.filter_eq_nil_iff.mp (List.isEmpty_iff.mp (demand_eq_ok.mp hscope))
    simpa using hnil member hmember

lemma declaredEmpty_eq_ok {raw : List Text} (hnone : raw = []) (h : declaredEmpty r axis = .ok a)
    (hstate : a.state ≠ ("unresolved" : Text)) : Resolved m r axis raw quotes a := by
  unfold declaredEmpty at h
  split_ifs at h with haxis happly hpaths
  · obtain rfl := Except.ok.inj h
    exact absurd (unresolvedAxis_state _) hstate
  · obtain rfl := Except.ok.inj h
    exact absurd (unresolvedAxis_state _) hstate
  · obtain rfl := Except.ok.inj h
    exact .noTargets hnone haxis (by simpa using happly) (by simpa using hpaths)

lemma declaredProposal_eq_ok {raw : List Text}
    (h : declaredProposal m r axis (raw.map strip) quotes = .ok a)
    (hstate : a.state ≠ ("unresolved" : Text)) : Resolved m r axis raw quotes a := by
  unfold declaredProposal at h
  by_cases hnone : raw = []
  · rw [if_pos (by rw [hnone]; rfl)] at h
    exact declaredEmpty_eq_ok hnone h hstate
  · rw [if_neg (by simpa using hnone)] at h
    obtain ⟨_, hlength, h⟩ := step_eq_ok.mp h
    obtain ⟨_, hquotes, h⟩ := step_eq_ok.mp h
    have hlength : quotes.length = (raw.map strip).length :=
      of_decide_eq_true (demand_eq_ok.mp hlength)
    have hgrounded : ∀ quote ∈ quotes, grounded m quote r.blob = true := by
      intro quote hquote
      rw [← List.map_snd_zip (Nat.le_of_eq hlength)] at hquote
      obtain ⟨p, hp, rfl⟩ := List.mem_map.mp hquote
      exact checkQuotes_eq_ok hquotes p hp
    rw [List.length_map] at hlength
    split_ifs at h with haxis
    · obtain rfl := return_eq_ok.mp h
      exact .declared hnone hlength hgrounded haxis
    · obtain ⟨targets, htargets, h⟩ := step_eq_ok.mp h
      cases targets with
      | error member =>
          obtain rfl := return_eq_ok.mp h
          exact absurd (unresolvedAxis_state _) hstate
      | ok targets =>
          obtain rfl := return_eq_ok.mp h
          have hnothing : IsTargets m r.worktree [] [] := ⟨List.nodup_nil, by simp⟩
          have hall := writeTargets_eq_ok hnothing htargets
          rw [List.nil_append] at hall
          exact .targets targets hnone hlength hgrounded (not_not.mp haxis) hall

/-- The texts and quotes an axis is proposed with. -/
def Offers (entry : Value) (raw quotes : List Text) : Prop :=
  ∃ items, entry = .obj items ∧ textsOf (getValue "value" items) = some raw ∧
    textsOf (getValue "evidence" items) = some quotes

/-- A set that is not left unresolved was proposed, and is what the proposal resolves to. -/
theorem axisFromProposal_set {entry : Value} (haxis : axis ≠ envelopeEnumAxis)
    (h : axisFromProposal m r axis entry = .ok a) (hstate : a.state ≠ ("unresolved" : Text)) :
    ∃ raw quotes members, Offers entry raw quotes ∧ IsMembers raw members ∧
      Resolved m r axis raw quotes a := by
  unfold axisFromProposal at h
  cases entry with
  | obj items =>
      obtain ⟨_, -, h⟩ := step_eq_ok.mp h
      split at h
      · exact absurd h throw_ne_ok
      · next state _ =>
        obtain ⟨detail, -, h⟩ := step_eq_ok.mp h
        by_cases hunresolved : state = ("unresolved" : Text)
        · rw [if_pos hunresolved] at h
          obtain rfl := return_eq_ok.mp h
          exact absurd (unresolvedAxis_state _) hstate
        · rw [if_neg hunresolved, if_neg haxis] at h
          obtain ⟨members, hmembers, h⟩ := step_eq_ok.mp h
          obtain ⟨quotes, hquotes, h⟩ := step_eq_ok.mp h
          obtain ⟨raw, hraw, hmembers⟩ := proposedMembers_eq_ok hmembers
          have hquotes := proposedEvidence_eq_ok hquotes
          have hoffers : Offers (.obj items) raw quotes := ⟨items, rfl, hraw, hquotes⟩
          refine ⟨raw, quotes, members, hoffers, hmembers, ?_⟩
          obtain rfl := hmembers.stripped
          split_ifs at h with hsilent
          · exact silentProposal_eq_ok h hstate
          · exact declaredProposal_eq_ok h hstate
  | _ => cases h

end

end Intake

end AgentOrch
