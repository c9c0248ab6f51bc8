import AgentOrch.Construction.Profile
import AgentOrch.Framework.Digraph

/-!
# The stage graph

The controller reads two facts off a frozen profile: the arity of a stage, and whether the
convergence gate can score every loop the profile can enter.  `gateReachable_walk` is what that
static test buys: a walk through reachable stages that avoids the correction stages, or that
avoids the branching stages, is no longer than the profile has stages.
-/

namespace AgentOrch

open Py

inductive Arity
  | branching
  | correction
  | neither
  deriving DecidableEq

namespace Profile

/-- `_stage_arity`: more than one outcome, exactly one, or terminal. -/
def stageArity (p : Profile) (name : Text) : Arity :=
  match p.stage name with
  | .error _ => .neither
  | .ok s =>
    if s.terminal.isSome then .neither
    else if 1 < s.outcomes.length then .branching
    else if s.outcomes.length = 1 then .correction
    else .neither

/-- The targets of a stage's outcomes; an unknown stage has none. -/
def successors (p : Profile) (name : Text) : List Text :=
  match p.stage name with
  | .error _ => []
  | .ok s => s.outcomes.map Prod.snd

/-- `_reachable_stages`. -/
def reachableStages (p : Profile) : List Text :=
  Digraph.reach p.successors (dictKeys p.stages) p.initialStage

/-- `_has_cycle`: the search starts from the nodes in sorted order. -/
def hasCycle (p : Profile) (nodes : List Text) : Bool :=
  Digraph.hasCycle p.successors (sorted nodes)

/-- `_gate_reachable`. -/
def gateReachable (p : Profile) : Bool :=
  let reachable := p.reachableStages
  if p.hasCycle (reachable.filter fun name => p.stageArity name ≠ .correction) then false
  else !p.hasCycle (reachable.filter fun name => p.stageArity name ≠ .branching)

lemma stage_eq_ok {p : Profile} {name : Text} {s : Stage} :
    p.stage name = .ok s ↔ dictGet name p.stages = some s := by
  unfold stage
  cases dictGet name p.stages <;> simp

lemma mem_successors {p : Profile} {name target : Text} :
    target ∈ p.successors name ↔
      ∃ s outcome, p.stage name = .ok s ∧ (outcome, target) ∈ s.outcomes := by
  unfold successors
  cases h : p.stage name with
  | error e => simp
  | ok s => simp

section
variable {p : Profile}

/-- The successors of a stage are stages. -/
lemma WellFormed.successors_mem (h : p.WellFormed) :
    ∀ name ∈ dictKeys p.stages, ∀ target ∈ p.successors name, target ∈ dictKeys p.stages := by
  intro name _ target htarget
  obtain ⟨s, outcome, hs, hout⟩ := mem_successors.mp htarget
  obtain ⟨s', hs'⟩ := h.targets name s (mem_of_dictGet (stage_eq_ok.mp hs)) outcome target hout
  exact dictGet_isSome.mp (by rw [hs']; rfl)

lemma WellFormed.initial_mem (h : p.WellFormed) : p.initialStage ∈ dictKeys p.stages := by
  obtain ⟨s, hs, -⟩ := h.initial
  exact dictGet_isSome.mp (by rw [hs]; rfl)

/-- The reachable stages hold the initial one, are closed under outcomes and are stages. -/
theorem WellFormed.reachableStages_closed (h : p.WellFormed) :
    p.initialStage ∈ p.reachableStages ∧
      (∀ u ∈ p.reachableStages, ∀ v ∈ p.successors u, v ∈ p.reachableStages) ∧
      p.reachableStages ⊆ dictKeys p.stages :=
  Digraph.reach_closed h.successors_mem h.initial_mem

lemma mem_sorted {items : List Text} {t : Text} : t ∈ sorted items ↔ t ∈ items := by
  rw [sorted, (List.perm_insertionSort _ _).mem_iff, List.mem_dedup]

lemma walk_of_hasCycle_false (h : p.WellFormed) {a : Arity}
    (hcycle : p.hasCycle (p.reachableStages.filter fun name => p.stageArity name ≠ a) = false)
    {walk : List Text} (hreach : ∀ s ∈ walk, s ∈ p.reachableStages)
    (hfree : ∀ s ∈ walk, p.stageArity s ≠ a)
    (hchain : walk.IsChain fun u v => v ∈ p.successors u) : walk.length ≤ p.stages.length := by
  obtain ⟨-, -, hsub⟩ := h.reachableStages_closed
  have hlen := Digraph.walk_length_le_of_hasCycle_false hcycle (dictKeys p.stages) walk
    (fun s hs => hsub (List.mem_of_mem_filter (mem_sorted.mp hs)))
    (fun s hs => mem_sorted.mpr (List.mem_filter.mpr ⟨hreach s hs, decide_eq_true (hfree s hs)⟩))
    hchain
  simpa [dictKeys] using hlen

/-- In a gate-reachable profile every walk without a correction stage, and every walk without
a branching stage, is no longer than the number of stages. -/
theorem WellFormed.gateReachable_walk (h : p.WellFormed) (hgate : p.gateReachable = true)
    {a : Arity} (ha : a = .correction ∨ a = .branching) {walk : List Text}
    (hreach : ∀ s ∈ walk, s ∈ p.reachableStages) (hfree : ∀ s ∈ walk, p.stageArity s ≠ a)
    (hchain : walk.IsChain fun u v => v ∈ p.successors u) : walk.length ≤ p.stages.length := by
  simp only [gateReachable] at hgate
  split_ifs at hgate with hcorrection
  rcases ha with rfl | rfl
  · exact walk_of_hasCycle_false h (Bool.eq_false_iff.mpr hcorrection) hreach hfree hchain
  · exact walk_of_hasCycle_false h (by simpa using hgate) hreach hfree hchain

/-- A stage with outcomes is branching or a correction. -/
lemma stageArity_of_working (h : p.WellFormed) {name : Text} {s : Stage}
    (hs : p.stage name = .ok s) (hwork : s.terminal = none) :
    p.stageArity name = .branching ∨ p.stageArity name = .correction := by
  have hne := (h.named name s (mem_of_dictGet (stage_eq_ok.mp hs))).2.working hwork |>.1
  have hpos := List.length_pos_iff.mpr hne
  unfold stageArity
  rw [hs]
  simp only [hwork, Option.isSome_none, Bool.false_eq_true, if_false]
  split_ifs with h1 h2
  · exact .inl rfl
  · exact .inr rfl
  · omega

lemma stageArity_of_terminal {name : Text} {s : Stage} (hs : p.stage name = .ok s)
    (hterm : s.terminal ≠ none) : p.stageArity name = .neither := by
  unfold stageArity
  rw [hs]
  simp [Option.isSome_iff_ne_none, hterm]

end

end Profile

end AgentOrch
