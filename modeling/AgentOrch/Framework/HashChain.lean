import Mathlib.Data.List.Induction
import Mathlib.Tactic.Common

/-!
# Hash chains

A list of entries, each with a digest of its own and the digest of the entry before it; the first
entry names no predecessor.  Entries and digests are arbitrary types.

The head of a chain is the digest of its last entry.  Where digests tell entries apart, the head
tells chains apart: `eq_of_head_eq` walks backwards from the head.
-/

namespace AgentOrch.HashChain

variable {α δ : Type} {digest : α → δ} {prev : α → Option δ}

/-- Every entry names the digest of the one before it; `last` is what the first one names. -/
def Linked (digest : α → δ) (prev : α → Option δ) : Option δ → List α → Prop
  | _, [] => True
  | last, x :: rest => prev x = last ∧ Linked digest prev (some (digest x)) rest

/-- The digest of the last entry. -/
def head (digest : α → δ) (entries : List α) : Option δ := entries.getLast?.map digest

@[simp] lemma head_nil : head digest [] = none := rfl

@[simp] lemma head_concat (entries : List α) (x : α) :
    head digest (entries ++ [x]) = some (digest x) := by
  simp [head]

lemma linked_concat {last : Option δ} {entries : List α} {x : α} :
    Linked digest prev last (entries ++ [x]) ↔
      Linked digest prev last entries ∧ prev x = (head digest entries).or last := by
  induction entries generalizing last with
  | nil => simp [Linked]
  | cons y entries ih =>
      have hhead : (head digest entries).or (some (digest y)) =
          (head digest (y :: entries)).or last := by
        cases entries with
        | nil => rfl
        | cons z entries => simp [head, List.getLast?_cons]
      rw [List.cons_append, Linked, Linked, ih, hhead, and_assoc]

/-- Two chains with the same head are the same chain, where equal digests mean equal entries. -/
theorem eq_of_head_eq {entries : List α} :
    ∀ {entries' : List α}, Linked digest prev none entries → Linked digest prev none entries' →
      (∀ x ∈ entries, ∀ y ∈ entries', digest x = digest y → x = y) →
      head digest entries = head digest entries' → entries = entries' := by
  induction entries using List.reverseRecOn with
  | nil =>
      intro entries' _ _ _ hhead
      cases entries' using List.reverseRecOn with
      | nil => rfl
      | append_singleton entries' y => simp at hhead
  | append_singleton entries x ih =>
      intro entries' h h' hinj hhead
      cases entries' using List.reverseRecOn with
      | nil => simp at hhead
      | append_singleton entries' y =>
          obtain ⟨hlinked, hprev⟩ := linked_concat.mp h
          obtain ⟨hlinked', hprev'⟩ := linked_concat.mp h'
          rw [head_concat, head_concat, Option.some.injEq] at hhead
          have hxy : x = y := hinj x (by simp) y (by simp) hhead
          have hrest : head digest entries = head digest entries' := by
            rw [hxy, hprev'] at hprev
            simpa using hprev.symm
          have hinj' : ∀ a ∈ entries, ∀ b ∈ entries', digest a = digest b → a = b :=
            fun a ha b hb => hinj a (by simp [ha]) b (by simp [hb])
          rw [ih hlinked hlinked' hinj' hrest, hxy]

end AgentOrch.HashChain
