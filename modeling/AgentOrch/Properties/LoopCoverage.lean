import AgentOrch.Construction.StageGraph
import AgentOrch.Framework.Cycles

/-!
# What the gate reads off the stage graph

The convergence gate scores a loop that carries a branching stage and a correction stage.
`_gate_reachable` asks this of every loop at once, without listing any: take the stages of one kind
away, and see whether a cycle is left.  A cycle that is left is a loop without a stage of that kind,
and a loop without one is a cycle that is left.
-/

namespace AgentOrch

open Py

namespace Profile

/-- A directed cycle of the stage graph that can be reached from the initial stage. -/
structure IsLoop (p : Profile) (loop : List Text) : Prop where
  cycle : Digraph.IsCycle p.successors loop
  reached : ∀ name ∈ loop,
    Relation.ReflTransGen (fun a b => b ∈ p.successors a) p.initialStage name

/-- A non-terminal stage with more than one outcome. -/
def Branches (p : Profile) (name : Text) : Prop :=
  ∃ s, p.stage name = .ok s ∧ s.terminal = none ∧ 1 < s.outcomes.length

/-- A non-terminal stage with exactly one outcome. -/
def Corrects (p : Profile) (name : Text) : Prop :=
  ∃ s, p.stage name = .ok s ∧ s.terminal = none ∧ s.outcomes.length = 1

variable {p : Profile} {name : Text} {loop : List Text}

/-! ## Arities -/

lemma stageArity_of_stage {s : Stage} (h : p.stage name = .ok s) :
    p.stageArity name =
      if s.terminal.isSome then .neither
      else if 1 < s.outcomes.length then .branching
      else if s.outcomes.length = 1 then .correction
      else .neither := by
  unfold stageArity
  rw [h]

lemma stageArity_eq_branching : p.stageArity name = .branching ↔ p.Branches name := by
  constructor
  · intro ha
    cases hstage : p.stage name with
    | error e => simp [stageArity, hstage] at ha
    | ok s =>
        rw [stageArity_of_stage hstage] at ha
        split_ifs at ha with hterm hlen
        exact ⟨s, hstage, by simpa using hterm, hlen⟩
  · rintro ⟨s, hstage, hterm, hlen⟩
    rw [stageArity_of_stage hstage, hterm, if_neg (by simp), if_pos hlen]

lemma stageArity_eq_correction : p.stageArity name = .correction ↔ p.Corrects name := by
  constructor
  · intro ha
    cases hstage : p.stage name with
    | error e => simp [stageArity, hstage] at ha
    | ok s =>
        rw [stageArity_of_stage hstage] at ha
        split_ifs at ha with hterm hmany hlen
        exact ⟨s, hstage, by simpa using hterm, hlen⟩
  · rintro ⟨s, hstage, hterm, hlen⟩
    rw [stageArity_of_stage hstage, hterm, if_neg (by simp), if_neg (by omega), if_pos hlen]

/-! ## Loops and what is left of the graph -/

lemma mem_reachableStages (h : p.WellFormed) :
    name ∈ p.reachableStages ↔
      Relation.ReflTransGen (fun a b => b ∈ p.successors a) p.initialStage name :=
  Digraph.mem_reach h.successors_mem h.initial_mem

/-- `_has_cycle` looks at the graph inside the nodes it is given. -/
lemma hasCycle_iff {nodes : List Text} :
    p.hasCycle nodes = true ↔ ∃ cycle, Digraph.IsCycle p.successors cycle ∧ cycle ⊆ nodes := by
  have hsorted : ∀ cycle : List Text, cycle ⊆ Py.sorted nodes ↔ cycle ⊆ nodes := fun cycle =>
    ⟨fun h _ hu => mem_sorted.mp (h hu), fun h _ hu => mem_sorted.mpr (h hu)⟩
  unfold hasCycle
  rw [Digraph.hasCycle_iff]
  simp only [hsorted]

/-- Without the stages of one arity there is no cycle exactly when every loop has one of them. -/
lemma hasCycle_without (h : p.WellFormed) (a : Arity) :
    p.hasCycle (p.reachableStages.filter fun name => p.stageArity name ≠ a) = false ↔
      ∀ loop, p.IsLoop loop → ∃ name ∈ loop, p.stageArity name = a := by
  rw [← Bool.not_eq_true, hasCycle_iff]
  constructor
  · intro hnone loop hloop
    by_contra hfree
    refine hnone ⟨loop, hloop.cycle, ?_⟩
    intro name hname
    have hne : p.stageArity name ≠ a := fun heq => hfree ⟨name, hname, heq⟩
    exact List.mem_filter.mpr
      ⟨(mem_reachableStages h).mpr (hloop.reached name hname), decide_eq_true hne⟩
  · rintro hevery ⟨cycle, hcycle, hsub⟩
    have hloop : p.IsLoop cycle :=
      ⟨hcycle, fun name hname => (mem_reachableStages h).mp (List.mem_filter.mp (hsub hname)).1⟩
    obtain ⟨name, hname, heq⟩ := hevery cycle hloop
    have hne := of_decide_eq_true (List.mem_filter.mp (hsub hname)).2
    exact hne heq

/-! ## The test -/

lemma gateReachable_eq_true :
    p.gateReachable = true ↔
      p.hasCycle (p.reachableStages.filter fun name => p.stageArity name ≠ .correction) = false ∧
        p.hasCycle (p.reachableStages.filter fun name => p.stageArity name ≠ .branching) =
          false := by
  simp only [gateReachable]
  split_ifs with hcycle
  · constructor
    · intro h
      cases h
    · rintro ⟨hnone, -⟩
      rw [hcycle] at hnone
      cases hnone
  · rw [Bool.not_eq_true']
    exact ⟨fun h => ⟨Bool.eq_false_iff.mpr hcycle, h⟩, And.right⟩

/-- `_gate_reachable` says that every loop the profile can enter has a branching stage and a
correction stage, and the searches it makes end and answer whether there is a cycle. -/
theorem gateReachable_iff {data : Json.Value} {p : Profile} (h : validateProfile data = .ok p) :
    (p.gateReachable = true ↔ ∀ loop, p.IsLoop loop →
      (∃ name ∈ loop, p.Branches name) ∧ ∃ name ∈ loop, p.Corrects name) ∧
    ∀ nodes : List Text,
      Digraph.SearchesAll (Digraph.inside p.successors (Py.sorted nodes)) (fun _ => .white)
        (Py.sorted nodes) (p.hasCycle nodes) ∧
      (p.hasCycle nodes = true ↔
        ∃ cycle, Digraph.IsCycle p.successors cycle ∧ cycle ⊆ nodes) := by
  have hwell := validateProfile_wellFormed h
  refine ⟨?_, fun nodes => ⟨Digraph.hasCycle_searches.1, hasCycle_iff⟩⟩
  have hcorrects := hasCycle_without hwell .correction
  have hbranches := hasCycle_without hwell .branching
  simp only [stageArity_eq_correction] at hcorrects
  simp only [stageArity_eq_branching] at hbranches
  rw [gateReachable_eq_true, hcorrects, hbranches]
  constructor
  · rintro ⟨hcorrect, hbranch⟩ loop hloop
    exact ⟨hbranch loop hloop, hcorrect loop hloop⟩
  · intro hevery
    exact ⟨fun loop hloop => (hevery loop hloop).2, fun loop hloop => (hevery loop hloop).1⟩

/-- The draft and its review are a loop, and it has a stage of each kind. -/
theorem gateReachable_iff_draftReview : draftReviewProfile.gateReachable = true ∧
    ∀ loop, draftReviewProfile.IsLoop loop →
      (∃ name ∈ loop, draftReviewProfile.Branches name) ∧
        ∃ name ∈ loop, draftReviewProfile.Corrects name := by
  have hgate : draftReviewProfile.gateReachable = true := by decide +kernel
  exact ⟨hgate, (gateReachable_iff validateProfile_draftReview).1.mp hgate⟩

end Profile

end AgentOrch
