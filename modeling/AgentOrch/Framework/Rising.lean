import Mathlib.Data.List.MinMax
import Mathlib.Data.List.Induction

/-!
# The last of a rising list

A list whose keys rise along it has its largest element at its end.  Whoever keeps only some of its
elements, but keeps the last one, still finds the largest, and still knows whether a key exceeds a
bound.
-/

namespace AgentOrch.Rising

variable {α β : Type} [LinearOrder β] {f : α → β} {all kept : List α}

/-- The keys rise along the list. -/
def IsRising (f : α → β) (all : List α) : Prop := all.Pairwise fun a b => f a < f b

lemma IsRising.filter (h : IsRising f all) (p : α → Bool) : IsRising f (all.filter p) :=
  List.Pairwise.sublist List.filter_sublist h

/-- The last element is the largest, and no other is as large. -/
lemma IsRising.le_last (h : IsRising f all) {last a : α} (hlast : all.getLast? = some last)
    (ha : a ∈ all) : a = last ∨ f a < f last := by
  obtain ⟨front, rfl⟩ : ∃ front, all = front ++ [last] :=
    List.getLast?_eq_some_iff.mp hlast
  rcases List.mem_append.mp ha with hfront | hend
  · exact .inr ((List.pairwise_append.mp h).2.2 a hfront last (List.mem_singleton.mpr rfl))
  · exact .inl (List.mem_singleton.mp hend)

/-- A list goes on rising with an element past its last one. -/
lemma IsRising.concat (h : IsRising f all) {a : α}
    (hlast : ∀ last, all.getLast? = some last → f last < f a) : IsRising f (all ++ [a]) := by
  refine List.pairwise_append.mpr ⟨h, List.pairwise_singleton _ _, ?_⟩
  intro b hb c hc
  rw [List.mem_singleton.mp hc]
  cases hend : all.getLast? with
  | none => exact absurd (List.getLast?_eq_none_iff.mp hend ▸ hb) List.not_mem_nil
  | some last =>
      rcases h.le_last hend hb with rfl | hlt
      · exact hlast b hend
      · exact hlt.trans (hlast last hend)

/-- The elements kept are elements of the list, and the last one is kept. -/
structure KeepsLast (all kept : List α) : Prop where
  subset : ∀ a ∈ kept, a ∈ all
  last : ∀ a, all.getLast? = some a → a ∈ kept

lemma keepsLast_self (all : List α) : KeepsLast all all :=
  ⟨fun _ h => h, fun _ h => List.mem_of_getLast? h⟩

lemma KeepsLast.isEmpty (h : KeepsLast all kept) : kept.isEmpty = all.isEmpty := by
  rw [Bool.eq_iff_iff, List.isEmpty_iff, List.isEmpty_iff]
  constructor
  · intro hkept
    rw [← List.getLast?_eq_none_iff]
    cases hlast : all.getLast? with
    | none => rfl
    | some a => exact absurd (hkept ▸ h.last a hlast) List.not_mem_nil
  · intro hall
    exact List.eq_nil_iff_forall_not_mem.mpr fun a ha =>
      absurd (hall ▸ h.subset a ha) List.not_mem_nil

/-- The largest element that is kept is the last of the list. -/
theorem KeepsLast.argmax (h : KeepsLast all kept) (hrising : IsRising f all) :
    kept.argmax f = all.getLast? := by
  cases hlast : all.getLast? with
  | none =>
      rw [List.getLast?_eq_none_iff.mp hlast] at h
      rw [List.argmax_eq_none]
      exact List.eq_nil_iff_forall_not_mem.mpr fun a ha => List.not_mem_nil (h.subset a ha)
  | some last =>
      have hmem := h.last last hlast
      cases hmax : kept.argmax f with
      | none =>
          rw [List.argmax_eq_none.mp hmax] at hmem
          exact absurd hmem List.not_mem_nil
      | some m =>
          have hle : f last ≤ f m := List.le_of_mem_argmax hmem hmax
          rcases hrising.le_last hlast (h.subset m (List.argmax_mem hmax)) with heq | hlt
          · rw [heq]
          · exact absurd hle (not_le.mpr hlt)

/-- A key above a bound is seen among the elements kept. -/
theorem KeepsLast.any_lt (h : KeepsLast all kept) (hrising : IsRising f all) (bound : β) :
    (kept.any fun a => decide (bound < f a)) = all.any fun a => decide (bound < f a) := by
  rw [Bool.eq_iff_iff, List.any_eq_true, List.any_eq_true]
  constructor
  · rintro ⟨a, ha, hlt⟩
    exact ⟨a, h.subset a ha, hlt⟩
  · rintro ⟨a, ha, hlt⟩
    obtain ⟨last, hlast⟩ : ∃ last, all.getLast? = some last := by
      cases hlast : all.getLast? with
      | none => exact absurd (List.getLast?_eq_none_iff.mp hlast ▸ ha) List.not_mem_nil
      | some last => exact ⟨last, rfl⟩
    refine ⟨last, h.last last hlast, ?_⟩
    rw [decide_eq_true_eq] at hlt ⊢
    rcases hrising.le_last hlast ha with rfl | hle
    · exact hlt
    · exact hlt.trans hle

end AgentOrch.Rising
