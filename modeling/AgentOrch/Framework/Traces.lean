import AgentOrch.Framework.Reachability

/-!
# Labelled executions

Steps that carry labels, so that a statement can speak of what happened and not only of the state
it led to.  `Trace` is an execution from an initial state with its history, `Path` a piece of one.
-/

namespace AgentOrch

variable {σ ℓ : Type}

/-- An execution from an initial state, and its labels in order. -/
inductive Trace (init : σ → Prop) (step : σ → ℓ → σ → Prop) : σ → List ℓ → Prop
  | init {s : σ} (h : init s) : Trace init step s []
  | step {s s' : σ} {l : ℓ} {ls : List ℓ} (h : Trace init step s ls) (hs : step s l s') :
    Trace init step s' (ls ++ [l])

/-- A piece of an execution. -/
inductive Path (step : σ → ℓ → σ → Prop) (s : σ) : σ → List ℓ → Prop
  | refl : Path step s s []
  | step {s' s'' : σ} {l : ℓ} {ls : List ℓ} (h : Path step s s' ls) (hs : step s' l s'') :
    Path step s s'' (ls ++ [l])

namespace Trace

variable {init : σ → Prop} {step : σ → ℓ → σ → Prop}

/-- The induction rule of an invariant that reads the history. -/
theorem invariant {Inv : σ → List ℓ → Prop} (hinit : ∀ s, init s → Inv s [])
    (hstep : ∀ s l s' ls, Inv s ls → step s l s' → Inv s' (ls ++ [l])) {s : σ} {ls : List ℓ}
    (h : Trace init step s ls) : Inv s ls := by
  induction h with
  | init h => exact hinit _ h
  | step _ hs ih => exact hstep _ _ _ _ ih hs

/-- An execution without its labels. -/
theorem reachable {s : σ} {ls : List ℓ} (h : Trace init step s ls) :
    Reachable init (fun s s' => ∃ l, step s l s') s := by
  induction h with
  | init h => exact .init h
  | step _ hs ih => exact .step ih ⟨_, hs⟩

end Trace

namespace Path

variable {step : σ → ℓ → σ → Prop} {s s' : σ} {ls : List ℓ}

/-- An invariant of the labels seen so far holds along a path from where it starts. -/
theorem invariant {Inv : σ → Prop} (hinit : Inv s)
    (hstep : ∀ s l s', Inv s → l ∈ ls → step s l s' → Inv s')
    (h : Path step s s' ls) : Inv s' := by
  induction h with
  | refl => exact hinit
  | step _ hs ih =>
      refine hstep _ _ _ (ih fun s l s' hinv hl => hstep s l s' hinv ?_) ?_ hs
      · exact List.mem_append_left _ hl
      · exact List.mem_append_right _ (List.mem_singleton.mpr rfl)

end Path

end AgentOrch
