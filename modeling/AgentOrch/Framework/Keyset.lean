import Mathlib.Data.List.Basic
import Mathlib.Data.List.TakeDrop
import Mathlib.Data.List.Pairwise
import Mathlib.Data.List.Range

/-!
# Keyset pagination

Rows stand in order, and a page is what follows the last row of the page before it, up to a size.
A row may have no rank (its key is null): nothing follows it, and it stands before the ranked ones.
Turning the pages one after the other shows every row as soon as no page but the last one ends in a
row without a rank.
-/

namespace AgentOrch.Keyset

variable {α : Type} {lt : α → α → Bool} {ranked : α → Bool}

/-- What the comparison of two keys promises. -/
structure IsOrder (lt : α → α → Bool) (ranked : α → Bool) : Prop where
  asymm : ∀ a b, lt a b = true → lt b a = false
  ranked_of_lt : ∀ a b, lt a b = true → ranked b = true

/-- A ranked row stands before every row after it. -/
def InOrder (lt : α → α → Bool) (ranked : α → Bool) (rows : List α) : Prop :=
  rows.Pairwise fun a b => ranked a = true → lt a b = true

/-- The pages one can turn to, from the first one on. -/
inductive Turned (lt : α → α → Bool) (size : ℕ) (rows : List α) : List α → Prop
  | first : Turned lt size rows (rows.take size)
  | next {page : List α} {last : α} (turned : Turned lt size rows page)
      (hlast : page.getLast? = some last) (hmore : rows.filter (lt last) ≠ []) :
      Turned lt size rows ((rows.filter (lt last)).take size)

/-- A page shows rows of the list. -/
lemma Turned.subset {size : ℕ} {rows page : List α} (h : Turned lt size rows page) :
    page ⊆ rows := by
  cases h with
  | first => exact List.take_subset size rows
  | next _ _ _ => exact List.Subset.trans (List.take_subset size _) (List.filter_subset_self _)

/-- What follows a ranked row is the rest of the list. -/
lemma filter_eq_drop (ho : IsOrder lt ranked) {rows : List α} (h : InOrder lt ranked rows) {i : ℕ}
    (hi : i < rows.length) (hr : ranked rows[i] = true) :
    rows.filter (lt rows[i]) = rows.drop (i + 1) := by
  have hpair := List.pairwise_iff_getElem.mp h
  have hbefore : (rows.take (i + 1)).filter (lt rows[i]) = [] := by
    rw [List.filter_eq_nil_iff]
    intro a ha hlt
    obtain ⟨j, hj, rfl⟩ := List.mem_take_iff_getElem.mp ha
    have hji : j ≤ i := by omega
    have hback : lt rows[j] rows[i] = true ∨ j = i := by
      rcases Nat.lt_or_eq_of_le hji with hlt' | heq
      · exact .inl (hpair j i (by omega) hi hlt' (ho.ranked_of_lt _ _ hlt))
      · exact .inr heq
    rcases hback with hback | rfl
    · rw [ho.asymm _ _ hback] at hlt
      exact Bool.false_ne_true hlt
    · rw [ho.asymm _ _ hlt] at hlt
      exact Bool.false_ne_true hlt
  have hafter : (rows.drop (i + 1)).filter (lt rows[i]) = rows.drop (i + 1) := by
    rw [List.filter_eq_self]
    intro a ha
    obtain ⟨j, hj, rfl⟩ := List.mem_drop_iff_getElem.mp ha
    exact hpair i (i + 1 + j) hi (by omega) (by omega) hr
  calc rows.filter (lt rows[i])
      = (rows.take (i + 1) ++ rows.drop (i + 1)).filter (lt rows[i]) := by
        rw [List.take_append_drop]
    _ = rows.drop (i + 1) := by rw [List.filter_append, hbefore, hafter, List.nil_append]

/-! ## The pieces -/

/-- The piece number `k` of the rows. -/
def block (size : ℕ) (rows : List α) (k : ℕ) : List α := (rows.drop (k * size)).take size

section
variable {size : ℕ} {rows : List α} {k : ℕ}

lemma length_block : (block size rows k).length = min size (rows.length - k * size) := by
  rw [block, List.length_take, List.length_drop]

lemma getElem?_block {i : ℕ} (hi : i < size) : (block size rows k)[i]? = rows[k * size + i]? := by
  rw [block, List.getElem?_take, if_pos hi, List.getElem?_drop]

lemma block_subset : block size rows k ⊆ rows :=
  List.Subset.trans (List.take_subset size _) (List.drop_subset _ _)

lemma block_zero : block size rows 0 = rows.take size := by
  rw [block, Nat.zero_mul, List.drop_zero]

/-- The first row of a piece. -/
lemma head?_block (hsize : 0 < size) : (block size rows k).head? = rows[k * size]? := by
  rw [List.head?_eq_getElem?, getElem?_block hsize, Nat.add_zero]

/-- The last row of a piece that another one follows. -/
lemma getLast?_block (hsize : 0 < size) (h : (k + 1) * size ≤ rows.length) :
    (block size rows k).getLast? = rows[(k + 1) * size - 1]? := by
  rw [Nat.succ_mul] at h ⊢
  have hfull : (block size rows k).length = size := by
    rw [length_block]
    omega
  rw [List.getLast?_eq_getElem?, hfull, getElem?_block (by omega)]
  congr 1
  omega

/-- The pieces in a row are the rows. -/
lemma flatten_blocks (count : ℕ) :
    ((List.range count).map (block size rows)).flatten = rows.take (count * size) := by
  induction count with
  | zero => simp
  | succ n ih =>
      rw [List.range_succ, List.map_append, List.flatten_append, ih, Nat.succ_mul, List.take_add]
      simp [block]

/-- What follows the last row of a piece starts with the next piece. -/
lemma block_succ (ho : IsOrder lt ranked) (h : InOrder lt ranked rows) (hsize : 0 < size)
    (hk : (k + 1) * size < rows.length) (hr : ranked (rows[(k + 1) * size - 1]) = true) :
    (rows.filter (lt rows[(k + 1) * size - 1])).take size = block size rows (k + 1) := by
  have hpos : 0 < (k + 1) * size := Nat.mul_pos (Nat.succ_pos k) hsize
  rw [filter_eq_drop ho h (by omega) hr, Nat.sub_add_cancel hpos]
  rfl

/-- Among ranked rows, what stands before a row is the front of the list. -/
lemma filter_eq_take (ho : IsOrder lt ranked) (h : InOrder lt ranked rows)
    (hall : ∀ a ∈ rows, ranked a = true) {i : ℕ} (hi : i < rows.length) :
    rows.filter (fun a => lt a rows[i]) = rows.take i := by
  have hpair := List.pairwise_iff_getElem.mp h
  have hfront : (rows.take i).filter (fun a => lt a rows[i]) = rows.take i := by
    rw [List.filter_eq_self]
    intro a ha
    obtain ⟨j, hj, rfl⟩ := List.mem_take_iff_getElem.mp ha
    exact hpair j i (by omega) hi (by omega) (hall _ (List.getElem_mem _))
  have hback : (rows.drop i).filter (fun a => lt a rows[i]) = [] := by
    rw [List.filter_eq_nil_iff]
    intro a ha hlt
    obtain ⟨j, hj, rfl⟩ := List.mem_drop_iff_getElem.mp ha
    rcases Nat.eq_zero_or_pos j with rfl | hpos
    · have hself := ho.asymm _ _ hlt
      simp only [Nat.add_zero] at hlt hself
      rw [hlt] at hself
      exact Bool.false_ne_true hself.symm
    · have hforth := hpair i (i + j) hi (by omega) (by omega) (hall _ (List.getElem_mem _))
      rw [ho.asymm _ _ hlt] at hforth
      exact Bool.false_ne_true hforth
  calc rows.filter (fun a => lt a rows[i])
      = (rows.take i ++ rows.drop i).filter (fun a => lt a rows[i]) := by
        rw [List.take_append_drop]
    _ = rows.take i := by rw [List.filter_append, hfront, hback, List.append_nil]

/-- Turning back from a piece leads to the piece before it. -/
lemma block_pred (ho : IsOrder lt ranked) (h : InOrder lt ranked rows)
    (hall : ∀ a ∈ rows, ranked a = true) (hk : (k + 1) * size < rows.length) :
    ((rows.filter fun a => lt a rows[(k + 1) * size]).reverse.take size).reverse =
      block size rows k := by
  rw [filter_eq_take ho h hall hk, List.take_reverse, List.reverse_reverse, List.length_take,
    Nat.min_eq_left (le_of_lt hk), Nat.succ_mul, Nat.add_sub_cancel, block, List.drop_take,
    Nat.add_sub_cancel_left]

end

/-- The pieces are the pages one can turn to. -/
lemma turned_block (ho : IsOrder lt ranked) {rows : List α} (h : InOrder lt ranked rows) {size : ℕ}
    (hsize : 0 < size)
    (hends : ∀ i (hi : i < rows.length), size ≤ i + 1 → i + 1 < rows.length →
      ranked rows[i] = true) {k : ℕ} :
    k * size < rows.length → Turned lt size rows (block size rows k) := by
  induction k with
  | zero =>
      intro _
      rw [block_zero]
      exact .first
  | succ k ih =>
      intro hk
      have hle : size ≤ (k + 1) * size := Nat.le_mul_of_pos_left size (Nat.succ_pos k)
      have hi : (k + 1) * size - 1 < rows.length := by omega
      have hlast : (block size rows k).getLast? = some rows[(k + 1) * size - 1] := by
        rw [getLast?_block hsize (le_of_lt hk), List.getElem?_eq_getElem hi]
      have hranked := hends _ hi (by omega) (by omega)
      have hmore : rows.filter (lt rows[(k + 1) * size - 1]) ≠ [] := by
        rw [filter_eq_drop ho h hi hranked, Ne, List.drop_eq_nil_iff]
        omega
      have hprevious : k * size < rows.length := by
        rw [Nat.succ_mul] at hk
        omega
      rw [← block_succ ho h hsize hk hranked]
      exact .next (ih hprevious) hlast hmore

/-- Every row is on a page one can turn to. -/
theorem exists_turned (ho : IsOrder lt ranked) {rows : List α} (h : InOrder lt ranked rows)
    {size : ℕ} (hsize : 0 < size)
    (hends : ∀ i (hi : i < rows.length), size ≤ i + 1 → i + 1 < rows.length →
      ranked rows[i] = true) {a : α} (ha : a ∈ rows) :
    ∃ page, Turned lt size rows page ∧ a ∈ page := by
  obtain ⟨i, hi, rfl⟩ := List.mem_iff_getElem.mp ha
  have hstart : i / size * size ≤ i := Nat.div_mul_le_self i size
  have hrest : i - i / size * size < size := by
    have := Nat.mod_lt i hsize
    have := Nat.div_add_mod' i size
    omega
  refine ⟨_, turned_block ho h hsize hends (k := i / size) (by omega), ?_⟩
  rw [block, List.mem_take_iff_getElem]
  refine ⟨i - i / size * size, ?_, ?_⟩
  · rw [List.length_drop]
    omega
  · rw [List.getElem_drop]
    congr 1
    omega

end AgentOrch.Keyset
