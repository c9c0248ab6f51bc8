import AgentOrch.Framework.PosixPath
import Mathlib.Data.List.DropRight
import Mathlib.Data.List.Infix
import Mathlib.Data.List.TakeWhile

/-!
# Where a text occurs

An occurrence never reaches over a character it does not have, so a text that is put together with
such separators can be searched piece by piece: `count` adds up, and an occurrence lies within one
piece.  Splitting and joining at a separator undo one another.
-/

namespace AgentOrch.Py

variable {sub a b t : Text} {c sep : CodePoint}

/-! ## Occurrences -/

/-- An occurrence lies on one side of a character it does not have. -/
lemma infix_separated (hc : c ∉ sub) : sub <:+: a ++ c :: b ↔ sub <:+: a ∨ sub <:+: b := by
  constructor
  · rintro ⟨before, after, h⟩
    rcases List.append_eq_append_iff.mp h with ⟨rest, ha, -⟩ | ⟨rest, hsub, hb⟩
    · exact .inl ⟨before, rest, ha.symm⟩
    · cases rest with
      | nil => exact .inl ⟨before, [], by simpa using hsub⟩
      | cons d rest =>
          obtain ⟨rfl, htail⟩ := List.cons.inj hb
          rcases List.append_eq_append_iff.mp hsub with ⟨rest', -, hsub⟩ | ⟨rest', -, hrest⟩
          · exact absurd (hsub ▸ List.mem_append_right rest' List.mem_cons_self) hc
          · cases rest' with
            | nil =>
                rw [List.nil_append] at hrest
                exact absurd (hrest ▸ List.mem_cons_self) hc
            | cons d rest' =>
                obtain ⟨-, hrest⟩ := List.cons.inj hrest
                exact .inr ⟨rest', after, by rw [htail, hrest]; rfl⟩
  · rintro (h | h)
    · exact h.trans ((List.prefix_append a (c :: b)).isInfix)
    · exact h.trans ((List.suffix_cons c b).isInfix.trans (List.suffix_append a (c :: b)).isInfix)

/-- An occurrence starts with its first character. -/
lemma infix_plain_append (hhead : sub.head? = some c) (ha : c ∉ a) :
    sub <:+: a ++ b ↔ sub <:+: b := by
  induction a with
  | nil => rfl
  | cons d a ih =>
      simp only [List.mem_cons, not_or] at ha
      rw [List.cons_append, List.infix_cons_iff, ih ha.2]
      constructor
      · rintro (h | h)
        · obtain ⟨after, h⟩ := h
          cases sub with
          | nil => cases hhead
          | cons c' sub =>
              cases hhead
              exact absurd (List.cons.inj h).1 ha.1
        · exact h
      · exact .inr

/-- A text without the first character has no occurrence. -/
lemma not_infix_of_plain (hhead : sub.head? = some c) (ht : c ∉ t) : ¬ sub <:+: t := by
  intro h
  refine ht (h.subset ?_)
  exact List.mem_of_head? hhead

/-! ## Counting -/

lemma prefix_separated (hc : c ∉ sub) : sub <+: a ++ c :: b ↔ sub <+: a := by
  induction a generalizing sub with
  | nil =>
      cases sub with
      | nil => simp
      | cons d sub =>
          have hne : d ≠ c := fun h => hc (h ▸ List.mem_cons_self)
          rw [List.nil_append, List.cons_prefix_cons]
          simp [hne]
  | cons d a ih =>
      cases sub with
      | nil => simp
      | cons d' sub =>
          rw [List.cons_append, List.cons_prefix_cons, List.cons_prefix_cons,
            ih fun h => hc (List.mem_cons_of_mem _ h)]

lemma countFrom_separated (hc : c ∉ sub) (hne : sub ≠ []) :
    ∀ {a : Text} {skip : ℕ}, skip ≤ a.length →
      countFrom sub skip (a ++ c :: b) = countFrom sub skip a + count sub b := by
  intro a
  induction a with
  | nil =>
      intro skip hskip
      obtain rfl : skip = 0 := Nat.le_zero.mp hskip
      have hno : sub.isPrefixOf (c :: b) = false := by
        rw [Bool.eq_false_iff, ne_eq, List.isPrefixOf_iff_prefix]
        intro h
        exact hne (List.prefix_nil.mp ((prefix_separated (a := []) hc).mp h))
      simp only [List.nil_append, countFrom, hno, count, Bool.false_eq_true, if_false, Nat.zero_add]
  | cons d a ih =>
      intro skip hskip
      cases skip with
      | succ skip => exact ih (Nat.le_of_succ_le_succ hskip)
      | zero =>
          have hiff : sub.isPrefixOf (d :: a ++ c :: b) = sub.isPrefixOf (d :: a) := by
            rw [Bool.eq_iff_iff, List.isPrefixOf_iff_prefix, List.isPrefixOf_iff_prefix,
              prefix_separated hc]
          rw [List.cons_append] at hiff ⊢
          rw [countFrom, countFrom, hiff]
          split_ifs with hmatch
          · have hlength := (List.isPrefixOf_iff_prefix.mp hmatch).length_le
            rw [List.length_cons] at hlength
            rw [ih (by omega), Nat.add_right_comm]
          · exact ih (Nat.zero_le _)

/-- Occurrences add up across a character they do not have. -/
theorem count_separated (hc : c ∉ sub) (hne : sub ≠ []) :
    count sub (a ++ c :: b) = count sub a + count sub b :=
  countFrom_separated hc hne (Nat.zero_le _)

/-- There is none to count exactly when there is none. -/
theorem count_eq_zero (hne : sub ≠ []) : count sub t = 0 ↔ ¬ sub <:+: t := by
  unfold count
  induction t with
  | nil => simp [countFrom, hne]
  | cons d t ih =>
      rw [countFrom, List.infix_cons_iff]
      split_ifs with hmatch
      · have hpre := List.isPrefixOf_iff_prefix.mp hmatch
        simp [hpre]
      · have hpre : ¬ sub <+: d :: t := fun h => hmatch (List.isPrefixOf_iff_prefix.mpr h)
        rw [ih]
        simp [hpre]

/-! ## Pieces -/

lemma splitOnChar_ne_nil (sep : CodePoint) (t : Text) : splitOnChar sep t ≠ [] := by
  cases t with
  | nil => simp [splitOnChar]
  | cons c t =>
      simp only [splitOnChar]
      split_ifs
      · simp
      · split <;> simp

/-- Splitting starts anew after a separator. -/
lemma splitOnChar_append (a b : Text) :
    splitOnChar sep (a ++ sep :: b) = splitOnChar sep a ++ splitOnChar sep b := by
  induction a with
  | nil => simp [splitOnChar]
  | cons c a ih =>
      rw [List.cons_append, splitOnChar, splitOnChar, ih]
      split_ifs
      · rfl
      · cases h : splitOnChar sep a with
        | nil => exact absurd h (splitOnChar_ne_nil sep a)
        | cons line lines => rfl

/-- A text without separators continues the first piece. -/
lemma splitOnChar_append_of_notMem (h : sep ∉ a) (b : Text) :
    ∃ first rest, splitOnChar sep b = first :: rest ∧
      splitOnChar sep (a ++ b) = (a ++ first) :: rest := by
  induction a with
  | nil =>
      obtain ⟨first, rest, hb⟩ := List.exists_cons_of_ne_nil (splitOnChar_ne_nil sep b)
      exact ⟨first, rest, hb, hb⟩
  | cons c a ih =>
      simp only [List.mem_cons, not_or] at h
      obtain ⟨first, rest, hb, hab⟩ := ih h.2
      refine ⟨first, rest, hb, ?_⟩
      rw [List.cons_append, splitOnChar, if_neg (Ne.symm h.1), hab]
      rfl

/-- Joining the pieces gives the text back. -/
lemma join_splitOnChar (sep : CodePoint) (t : Text) : join [sep] (splitOnChar sep t) = t := by
  induction t with
  | nil => rfl
  | cons c t ih =>
      rw [splitOnChar]
      obtain ⟨first, rest, hpieces⟩ := List.exists_cons_of_ne_nil (splitOnChar_ne_nil sep t)
      rw [hpieces] at ih ⊢
      split_ifs with hc
      · rw [join, ih, hc]
        · rfl
        · simp
      · cases rest with
        | nil =>
            rw [join] at ih
            show c :: first = c :: t
            rw [ih]
        | cons second rest =>
            rw [join] at ih
            · show (c :: first) ++ [sep] ++ join [sep] (second :: rest) = c :: t
              rw [← ih]
              rfl
            · simp

/-- And splitting what was joined gives the pieces. -/
lemma splitOnChar_join {pieces : List Text} (hne : pieces ≠ []) (h : ∀ p ∈ pieces, sep ∉ p) :
    splitOnChar sep (join [sep] pieces) = pieces := by
  induction pieces with
  | nil => exact absurd rfl hne
  | cons piece pieces ih =>
      obtain ⟨hpiece, hpieces⟩ := List.forall_mem_cons.mp h
      cases pieces with
      | nil => exact splitOnChar_of_notMem hpiece
      | cons second rest =>
          have hjoin : join [sep] (piece :: second :: rest) =
              piece ++ sep :: join [sep] (second :: rest) := by
            rw [join]
            · simp
            · simp
          rw [hjoin, splitOnChar_append, ih (by simp) hpieces, splitOnChar_of_notMem hpiece]
          rfl

/-- A piece lies within what is joined. -/
lemma infix_join_of_mem {pieces : List Text} {piece : Text} (h : piece ∈ pieces) :
    piece <:+: join [sep] pieces := by
  induction pieces with
  | nil => exact absurd h List.not_mem_nil
  | cons first pieces ih =>
      cases pieces with
      | nil =>
          rw [List.mem_singleton.mp h]
          exact List.infix_refl first
      | cons second rest =>
          have hjoin : join [sep] (first :: second :: rest) =
              first ++ sep :: join [sep] (second :: rest) := by
            rw [join]
            · simp
            · simp
          rw [hjoin]
          rcases List.mem_cons.mp h with rfl | h
          · exact (List.prefix_append piece _).isInfix
          · exact (ih h).trans ((List.suffix_cons sep _).isInfix.trans
              (List.suffix_append first _).isInfix)

/-- And within the text that is split. -/
lemma infix_of_mem_splitOnChar {piece : Text} (h : piece ∈ splitOnChar sep t) : piece <:+: t := by
  have hpiece := @infix_join_of_mem sep _ _ h
  rwa [join_splitOnChar] at hpiece

/-! ## White space -/

lemma strip_within (t : Text) : strip t <:+: t := by
  have hl : lstrip t <:+: t := (List.dropWhile_suffix isSpace).isInfix
  have hr : strip t <:+: lstrip t := by
    unfold strip rstrip
    have hsuffix := List.dropWhile_suffix isSpace (l := (lstrip t).reverse)
    have hpre := List.reverse_prefix.mpr hsuffix
    rw [List.reverse_reverse] at hpre
    exact hpre.isInfix
  exact hr.trans hl

/-- Blank text is white space throughout. -/
lemma isBlank_iff : isBlank t = true ↔ ∀ c ∈ t, isSpace c = true := by
  unfold isBlank strip rstrip lstrip
  rw [List.isEmpty_iff, List.reverse_eq_nil_iff, List.dropWhile_eq_nil_iff]
  constructor
  · intro h
    have hnil : t.dropWhile isSpace = [] := by
      cases hdrop : t.dropWhile isSpace with
      | nil => rfl
      | cons c rest =>
          have hc : isSpace c = true := h c (by rw [hdrop]; simp)
          have hnot := List.head_dropWhile_not isSpace (l := t) (by rw [hdrop]; simp)
          simp only [hdrop, List.head_cons, hc] at hnot
          cases hnot
    exact List.dropWhile_eq_nil_iff.mp hnil
  · intro h c hc
    have hmem : c ∈ t := List.dropWhile_subset isSpace (List.mem_reverse.mp hc)
    exact h c hmem

/-- White space after a text that does not end with any is stripped. -/
lemma strip_append_blank (hfirst : ∀ c ∈ a.head?, isSpace c = false)
    (hlast : ∀ c ∈ a.getLast?, isSpace c = false) (hne : a ≠ [])
    (hb : ∀ c ∈ b, isSpace c = true) : strip (a ++ b) = a := by
  obtain ⟨first, rest, rfl⟩ := List.exists_cons_of_ne_nil hne
  have hl : lstrip (first :: rest ++ b) = first :: rest ++ b := by
    simp [lstrip, hfirst first (by simp)]
  have hdrop : ((first :: rest ++ b).reverse).dropWhile isSpace = (first :: rest).reverse := by
    rw [List.reverse_append, List.dropWhile_append_of_pos fun c hc => hb c (List.mem_reverse.mp hc)]
    cases hrev : (first :: rest).reverse with
    | nil => simp at hrev
    | cons last front =>
        have hl : (first :: rest).getLast? = some last := by
          rw [← List.head?_reverse, hrev]
          rfl
        simp [hlast last (by rw [hl]; simp)]
  rw [strip, hl, rstrip, hdrop, List.reverse_reverse]

/-- Stripping again changes nothing. -/
lemma strip_strip (t : Text) : strip (strip t) = strip t := by
  have hhead : ∀ c ∈ (lstrip t).head?, isSpace c = false := by
    intro c hc
    have hnot := List.head?_dropWhile_not isSpace t
    rw [show (t.dropWhile isSpace).head? = some c from hc] at hnot
    simpa using hnot
  have hpre : rstrip (lstrip t) <+: lstrip t := by
    have hsuffix := List.dropWhile_suffix isSpace (l := (lstrip t).reverse)
    have hreverse := List.reverse_prefix.mpr hsuffix
    rwa [List.reverse_reverse] at hreverse
  have hl : lstrip (strip t) = strip t := by
    unfold strip
    cases hr : rstrip (lstrip t) with
    | nil => rfl
    | cons c rest =>
        obtain ⟨tail, htail⟩ := hpre
        have hc : isSpace c = false := by
          refine hhead c ?_
          rw [← htail, hr]
          rfl
        simp [lstrip, hc]
  have hr : rstrip (strip t) = strip t := by
    unfold strip rstrip
    rw [List.reverse_reverse, List.dropWhile_idempotent]
  rw [strip, hl, hr]

/-- A text that does not begin or end with white space is stripped. -/
lemma strip_of_ends (hfirst : ∀ c ∈ t.head?, isSpace c = false)
    (hlast : ∀ c ∈ t.getLast?, isSpace c = false) : strip t = t := by
  by_cases hne : t = []
  · subst hne
    rfl
  · have h := strip_append_blank (b := []) hfirst hlast hne (by simp)
    rwa [List.append_nil] at h
end AgentOrch.Py
