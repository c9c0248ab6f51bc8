import Mathlib.Algebra.Ring.Nat
import Mathlib.Data.List.Basic
import Mathlib.Data.List.Infix
import Mathlib.Tactic.Common

/-!
# Python text

A `str` is a sequence of code points, and a code point may be a lone surrogate: JSON escapes
can produce one, and an encoder without an error handler refuses it.  `Text` therefore is a
list of numbers below `0x110000`, not a Lean `String`.

The operations are the string methods the modelled program calls, each with the documented
behaviour: `str.isspace` for `strip`, the line boundaries of `splitlines`, the leftmost
non-overlapping matches of `count`, and the newline translation a text-mode read applies.
-/

namespace AgentOrch.Py

/-- A Unicode code point, lone surrogates included. -/
abbrev CodePoint := Fin 0x110000

/-- A Python `str`. -/
abbrev Text := List CodePoint

instance neZero_codePoints : NeZero 0x110000 := ⟨by decide⟩

instance (priority := 2000) lawfulBEq_codePoint : LawfulBEq CodePoint := inferInstance

instance (priority := 2000) lawfulBEq_text : LawfulBEq Text := inferInstance

/-- The text a Lean literal spells. -/
def Text.ofString (s : String) : Text := s.toList.map fun c => Fin.ofNat _ c.toNat

instance : Coe String Text := ⟨Text.ofString⟩

/-! ## Character classes -/

/-- A code point no UTF-8 sequence encodes. -/
def isSurrogate (c : CodePoint) : Bool := 0xD800 ≤ c.val && c.val ≤ 0xDFFF

/-- `str.isspace` on one character, which is also the class `\s` of a `str` pattern. -/
def isSpace (c : CodePoint) : Bool :=
  (0x09 ≤ c.val && c.val ≤ 0x0D) || (0x1C ≤ c.val && c.val ≤ 0x20) || c.val == 0x85 ||
    c.val == 0xA0 || c.val == 0x1680 || (0x2000 ≤ c.val && c.val ≤ 0x200A) ||
    c.val == 0x2028 || c.val == 0x2029 || c.val == 0x202F || c.val == 0x205F || c.val == 0x3000

/-- The boundaries `str.splitlines` splits at; a `\r\n` pair counts once. -/
def isLineBreak (c : CodePoint) : Bool :=
  (0x0A ≤ c.val && c.val ≤ 0x0D) || (0x1C ≤ c.val && c.val ≤ 0x1E) || c.val == 0x85 ||
    c.val == 0x2028 || c.val == 0x2029

def isAsciiDigit (c : CodePoint) : Bool := 0x30 ≤ c.val && c.val ≤ 0x39

def isAsciiLetter (c : CodePoint) : Bool :=
  (0x41 ≤ c.val && c.val ≤ 0x5A) || (0x61 ≤ c.val && c.val ≤ 0x7A)

/-- Every code point of the text has a UTF-8 encoding. -/
def Encodable (t : Text) : Prop := ∀ c ∈ t, isSurrogate c = false

instance (t : Text) : Decidable (Encodable t) := List.decidableBAll _ t

@[simp] lemma encodable_nil : Encodable [] := by simp [Encodable]

@[simp] lemma encodable_cons {c : CodePoint} {t : Text} :
    Encodable (c :: t) ↔ isSurrogate c = false ∧ Encodable t := by
  simp [Encodable]

@[simp] lemma encodable_append {s t : Text} :
    Encodable (s ++ t) ↔ Encodable s ∧ Encodable t := by
  simp only [Encodable, List.mem_append]
  exact ⟨fun h => ⟨fun c hc => h c (.inl hc), fun c hc => h c (.inr hc)⟩,
    fun h c hc => hc.elim (h.1 c) (h.2 c)⟩

/-- A text whose characters all occur in an encodable text is encodable. -/
lemma Encodable.of_subset {s t : Text} (ht : Encodable t) (h : s ⊆ t) : Encodable s :=
  fun c hc => ht c (h hc)

/-- A Lean literal holds no surrogate, so its text is encodable. -/
lemma encodable_ofString (s : String) : Encodable (Text.ofString s) := by
  intro c hc
  obtain ⟨d, -, rfl⟩ := List.mem_map.mp hc
  have hd := d.valid
  have hval : (Fin.ofNat 0x110000 d.toNat).val = d.toNat := by
    rw [Fin.val_ofNat]
    exact Nat.mod_eq_of_lt (by
      rcases hd with h | h
      · exact lt_of_lt_of_le h (by decide)
      · exact h.2)
  simp only [isSurrogate, hval, Bool.and_eq_false_iff, decide_eq_false_iff_not, not_le]
  rcases hd with h | h
  · exact .inl h
  · exact .inr h.1

/-! ## Stripping and splitting -/

def lstrip (t : Text) : Text := t.dropWhile isSpace

def rstrip (t : Text) : Text := (t.reverse.dropWhile isSpace).reverse

def strip (t : Text) : Text := rstrip (lstrip t)

/-- The text is empty or white space, which is what `not text.strip()` tests. -/
def isBlank (t : Text) : Bool := (strip t).isEmpty

/-- The lines still to come once `line` has been read; after a `\r`, a `\n` belongs to the
boundary already counted. -/
def splitlinesFrom (line : Text) (afterCr : Bool) : Text → List Text
  | [] => if line.isEmpty then [] else [line]
  | c :: t =>
    if afterCr && c == 0x0A then splitlinesFrom line false t
    else if isLineBreak c then line :: splitlinesFrom [] (c == 0x0D) t
    else splitlinesFrom (line ++ [c]) false t

/-- `str.splitlines()`: the pieces between line boundaries, with no empty last piece. -/
def splitlines (t : Text) : List Text := splitlinesFrom [] false t

lemma strip_subset (t : Text) : strip t ⊆ t := by
  intro c hc
  have hlstrip : c ∈ lstrip t := by
    have := List.dropWhile_subset isSpace (List.mem_reverse.mp hc)
    simpa using this
  exact List.dropWhile_subset isSpace hlstrip

lemma splitlinesFrom_subset (t : Text) : ∀ {line : Text} {afterCr : Bool} {l : Text},
    l ∈ splitlinesFrom line afterCr t → l ⊆ line ++ t := by
  induction t with
  | nil =>
      intro line afterCr l hl
      simp only [splitlinesFrom] at hl
      split_ifs at hl
      · cases hl
      · simp [List.mem_singleton.mp hl]
  | cons c t ih =>
      intro line afterCr l hl
      simp only [splitlinesFrom] at hl
      split_ifs at hl
      · intro d hd
        have := ih hl hd
        simp only [List.mem_append, List.mem_cons] at this ⊢
        tauto
      · rcases List.mem_cons.mp hl with rfl | hl
        · exact List.subset_append_left _ _
        · intro d hd
          have := ih hl hd
          simp only [List.mem_append, List.mem_cons] at this ⊢
          tauto
      · simpa using ih hl

/-- A line of a text is made of its characters. -/
lemma splitlines_subset {t l : Text} (h : l ∈ splitlines t) : l ⊆ t := by
  simpa using splitlinesFrom_subset t h

/-- `str.split(sep)` for a one-character separator. -/
def splitOnChar (sep : CodePoint) : Text → List Text
  | [] => [[]]
  | c :: t =>
    if c = sep then [] :: splitOnChar sep t
    else match splitOnChar sep t with
      | [] => [[c]]
      | line :: lines => (c :: line) :: lines

/-- `sep.join(lines)`. -/
def join (sep : Text) : List Text → Text
  | [] => []
  | [line] => line
  | line :: lines => line ++ sep ++ join sep lines

/-! ## Substrings -/

/-- The text before and after the leftmost occurrence of `sub`. -/
def splitFirst (sub : Text) : Text → Option (Text × Text)
  | [] => if sub.isPrefixOf [] then some ([], []) else none
  | c :: t =>
    if sub.isPrefixOf (c :: t) then some ([], (c :: t).drop sub.length)
    else (splitFirst sub t).map fun (before, after) => (c :: before, after)

/-- `str.find(sub)`, with `none` for a missing occurrence. -/
def find (sub t : Text) : Option ℕ := (splitFirst sub t).map fun (before, _) => before.length

/-- Matches of `sub` once `skip` more characters of the last match have passed. -/
def countFrom (sub : Text) : ℕ → Text → ℕ
  | _, [] => 0
  | skip + 1, _ :: t => countFrom sub skip t
  | 0, c :: t =>
    if sub.isPrefixOf (c :: t) then countFrom sub (sub.length - 1) t + 1
    else countFrom sub 0 t

/-- `str.count(sub)` for a non-empty `sub`: leftmost matches that do not overlap. -/
def count (sub t : Text) : ℕ := countFrom sub 0 t

/-- `sub in text`. -/
def contains (sub t : Text) : Bool := (splitFirst sub t).isSome

/-- `text[start:stop]`. -/
def slice (start stop : ℕ) (t : Text) : Text := (t.take stop).drop start

/-- The text between the leftmost `opening` and the leftmost `closing`, when the second starts no
earlier than the first ends. -/
def between (opening closing t : Text) : Option Text :=
  match find opening t, find closing t with
  | some start, some stop =>
    if stop < start + opening.length then none
    else some (slice (start + opening.length) stop t)
  | _, _ => none

lemma splitFirst_eq_append {sub : Text} :
    ∀ {t before after : Text}, splitFirst sub t = some (before, after) →
      t = before ++ sub ++ after := by
  intro t
  induction t with
  | nil =>
      intro before after h
      simp only [splitFirst] at h
      split at h
      · next hp =>
        obtain ⟨rfl, rfl⟩ := Prod.mk.injEq .. ▸ Option.some.injEq .. ▸ h
        simpa using hp
      · cases h
  | cons c t ih =>
      intro before after h
      simp only [splitFirst] at h
      split at h
      · next hp =>
        obtain ⟨rfl, rfl⟩ := Prod.mk.injEq .. ▸ Option.some.injEq .. ▸ h
        obtain ⟨rest, hrest⟩ := List.isPrefixOf_iff_prefix.mp hp
        rw [← hrest]
        simp
      · obtain ⟨⟨b, a⟩, hb, heq⟩ := Option.map_eq_some_iff.mp h
        obtain ⟨rfl, rfl⟩ := Prod.mk.injEq .. ▸ heq
        rw [ih hb]
        simp

/-! ## Newline translation -/

/-- The translated text, where a `\n` right after a `\r` has been counted already. -/
def newlinesFrom (afterCr : Bool) : Text → Text
  | [] => []
  | c :: t =>
    if c = 0x0D then 0x0A :: newlinesFrom true t
    else if afterCr && c == 0x0A then newlinesFrom false t
    else c :: newlinesFrom false t

/-- What a text-mode read does to line ends: `\r\n` and `\r` both become `\n`. -/
def universalNewlines (t : Text) : Text := newlinesFrom false t

@[simp] lemma newlinesFrom_nil (b : Bool) : newlinesFrom b [] = [] := rfl

@[simp] lemma newlinesFrom_cr (b : Bool) (t : Text) :
    newlinesFrom b (0x0D :: t) = 0x0A :: newlinesFrom true t := by
  simp [newlinesFrom]

lemma newlinesFrom_cons {c : CodePoint} (hcr : c ≠ 0x0D) (hlf : c ≠ 0x0A) (b : Bool) (t : Text) :
    newlinesFrom b (c :: t) = c :: newlinesFrom false t := by
  simp [newlinesFrom, hcr, hlf]

@[simp] lemma newlinesFrom_lf (t : Text) :
    newlinesFrom false (0x0A :: t) = 0x0A :: newlinesFrom false t := by
  simp [newlinesFrom]

/-- The flag only matters to a text that starts with `\n`. -/
lemma newlinesFrom_eq_false {t : Text} (h : t.head? ≠ some 0x0A) (b : Bool) :
    newlinesFrom b t = newlinesFrom false t := by
  cases t with
  | nil => rfl
  | cons c t =>
      have hlf : c ≠ 0x0A := by simpa using h
      simp [newlinesFrom, hlf]

lemma newlinesFrom_subset (t : Text) : ∀ b, newlinesFrom b t ⊆ 0x0A :: t := by
  induction t with
  | nil => intro b; simp
  | cons c t ih =>
      intro b d hd
      simp only [newlinesFrom] at hd
      have lift : ∀ b', d ∈ newlinesFrom b' t → d ∈ (0x0A : CodePoint) :: c :: t := by
        intro b' h
        rcases List.mem_cons.mp (ih b' h) with rfl | h
        · exact List.mem_cons_self
        · exact List.mem_cons_of_mem _ (List.mem_cons_of_mem _ h)
      split at hd
      · rcases List.mem_cons.mp hd with rfl | h
        · exact List.mem_cons_self
        · exact lift _ h
      · split at hd
        · exact lift _ hd
        · rcases List.mem_cons.mp hd with rfl | h
          · simp
          · exact lift _ h

/-! ### Markers survive the translation

A marker without line ends is found, counted and cut out at the same place before and after
the translation. -/

/-- The text holds no line end the translation touches. -/
def LineFree (t : Text) : Prop := ∀ c ∈ t, c ≠ 0x0D ∧ c ≠ 0x0A

instance (t : Text) : Decidable (LineFree t) := List.decidableBAll _ t

lemma newlinesFrom_append {p : Text} (hp : LineFree p) (t : Text) :
    newlinesFrom false (p ++ t) = p ++ newlinesFrom false t := by
  induction p with
  | nil => rfl
  | cons c p ih =>
      obtain ⟨hcr, hlf⟩ := hp c List.mem_cons_self
      rw [List.cons_append, newlinesFrom_cons hcr hlf,
        ih fun d hd => hp d (List.mem_cons_of_mem _ hd)]
      rfl

lemma isPrefixOf_of_ne {c d : CodePoint} (h : d ≠ c) (sub t : Text) :
    (d :: sub).isPrefixOf (c :: t) = false := by
  rw [List.isPrefixOf, beq_eq_false_iff_ne.mpr h, Bool.false_and]

lemma isPrefixOf_newlinesFrom {sub : Text} (hsub : LineFree sub) :
    ∀ t, sub.isPrefixOf (newlinesFrom false t) = sub.isPrefixOf t := by
  induction sub with
  | nil => intro t; simp
  | cons d sub ih =>
      intro t
      obtain ⟨hdcr, hdlf⟩ := hsub d List.mem_cons_self
      have ih := ih fun e he => hsub e (List.mem_cons_of_mem _ he)
      cases t with
      | nil => rfl
      | cons c t =>
          by_cases hcr : c = 0x0D
          · subst hcr
            rw [newlinesFrom_cr, isPrefixOf_of_ne hdlf, isPrefixOf_of_ne hdcr]
          by_cases hlf : c = 0x0A
          · subst hlf
            rw [newlinesFrom_lf, isPrefixOf_of_ne hdlf, isPrefixOf_of_ne hdlf]
          rw [newlinesFrom_cons hcr hlf]
          simp [List.isPrefixOf, ih t]

lemma countFrom_append (sub p t : Text) : countFrom sub p.length (p ++ t) = countFrom sub 0 t := by
  induction p with
  | nil => rfl
  | cons c p ih => simpa [countFrom] using ih

lemma countFrom_newlinesFrom {sub : Text} (hsub : LineFree sub) (hne : sub ≠ []) (t : Text) :
    ∀ b, countFrom sub 0 (newlinesFrom b t) = countFrom sub 0 t := by
  induction hn : t.length using Nat.strong_induction_on generalizing t with
  | _ n ih =>
    intro b
    match t, hn with
    | [], _ => rfl
    | c :: t, hn =>
      have iht := ih t.length (by simp at hn; omega) t rfl
      obtain ⟨d, sub', rfl⟩ := List.exists_cons_of_ne_nil hne
      obtain ⟨hdcr, hdlf⟩ := hsub d List.mem_cons_self
      by_cases hcr : c = 0x0D
      · subst hcr
        simp [countFrom, isPrefixOf_of_ne hdcr, isPrefixOf_of_ne hdlf, iht true]
      by_cases hlf : c = 0x0A
      · subst hlf
        cases b <;> simp [newlinesFrom, countFrom, isPrefixOf_of_ne hdlf, iht false]
      rw [newlinesFrom_cons hcr hlf]
      have hpre := isPrefixOf_newlinesFrom hsub (c :: t)
      rw [newlinesFrom_cons hcr hlf] at hpre
      simp only [countFrom, hpre]
      split
      · next hmatch =>
        obtain ⟨rest, hrest⟩ := List.isPrefixOf_iff_prefix.mp hmatch
        obtain ⟨rfl, rfl⟩ : d = c ∧ sub' ++ rest = t := by simpa using hrest
        have hfree : LineFree sub' := fun e he => hsub e (List.mem_cons_of_mem _ he)
        have hrest := ih rest.length (by simp at hn; omega) rest rfl false
        rw [newlinesFrom_append hfree]
        simp only [List.length_cons, Nat.add_sub_cancel, countFrom_append]
        rw [hrest]
      · exact iht false

lemma count_universalNewlines {sub : Text} (hsub : LineFree sub) (hne : sub ≠ []) (t : Text) :
    count sub (universalNewlines t) = count sub t :=
  countFrom_newlinesFrom hsub hne t false

lemma splitFirst_newlinesFrom {sub : Text} (hsub : LineFree sub) (hne : sub ≠ []) (t : Text) :
    ∀ b, splitFirst sub (newlinesFrom b t) =
      (splitFirst sub t).map fun p => (newlinesFrom b p.1, newlinesFrom false p.2) := by
  obtain ⟨d, sub', rfl⟩ := List.exists_cons_of_ne_nil hne
  obtain ⟨hdcr, hdlf⟩ := hsub d List.mem_cons_self
  induction t with
  | nil => intro b; simp [splitFirst]
  | cons c t ih =>
      intro b
      by_cases hcr : c = 0x0D
      · subst hcr
        simp [splitFirst, isPrefixOf_of_ne hdcr, isPrefixOf_of_ne hdlf, ih true, Function.comp_def]
      by_cases hlf : c = 0x0A
      · subst hlf
        cases b
        · simp [splitFirst, isPrefixOf_of_ne hdlf, ih false, Function.comp_def]
        · simp [splitFirst, newlinesFrom, isPrefixOf_of_ne hdlf, ih false, Function.comp_def]
      rw [newlinesFrom_cons hcr hlf]
      have hpre := isPrefixOf_newlinesFrom hsub (c :: t)
      rw [newlinesFrom_cons hcr hlf] at hpre
      simp only [splitFirst, hpre]
      split
      · next hmatch =>
        obtain ⟨rest, hrest⟩ := List.isPrefixOf_iff_prefix.mp hmatch
        obtain ⟨rfl, rfl⟩ : d = c ∧ sub' ++ rest = t := by simpa using hrest
        have hfree : LineFree sub' := fun e he => hsub e (List.mem_cons_of_mem _ he)
        simp [newlinesFrom_append hfree]
      · simp [ih false, newlinesFrom_cons hcr hlf, Function.comp_def]

lemma find_universalNewlines {sub : Text} (hsub : LineFree sub) (hne : sub ≠ []) (t : Text) :
    find sub (universalNewlines t) =
      (splitFirst sub t).map fun p => (universalNewlines p.1).length := by
  simp [find, universalNewlines, splitFirst_newlinesFrom hsub hne, Function.comp_def]

/-- The translation acts on both sides of a cut, unless the cut splits a line end. -/
lemma newlinesFrom_append_of_head {q : Text} (hq : q.head? ≠ some 0x0A) (p : Text) :
    ∀ b, newlinesFrom b (p ++ q) = newlinesFrom b p ++ newlinesFrom false q := by
  induction p with
  | nil => intro b; exact newlinesFrom_eq_false hq b
  | cons c p ih =>
      intro b
      simp only [List.cons_append, newlinesFrom]
      split
      · rw [ih, List.cons_append]
      · split
        · exact ih false
        · rw [ih, List.cons_append]

lemma LineFree.head_ne {t : Text} (h : LineFree t) (hne : t ≠ []) (rest : Text) :
    (t ++ rest).head? ≠ some 0x0A := by
  obtain ⟨c, t, rfl⟩ := List.exists_cons_of_ne_nil hne
  simpa using (h c List.mem_cons_self).2

/-- What stands between two markers is cut out at the same place. -/
theorem between_universalNewlines {opening closing : Text} (ho : LineFree opening)
    (hone : opening ≠ []) (hc : LineFree closing) (hcne : closing ≠ []) (t : Text) :
    between opening closing (universalNewlines t) =
      (between opening closing t).map universalNewlines := by
  unfold between
  rw [find_universalNewlines ho hone, find_universalNewlines hc hcne]
  cases hopen : splitFirst opening t with
  | none => simp [find, hopen]
  | some p =>
      cases hclose : splitFirst closing t with
      | none => simp [find, hopen, hclose]
      | some q =>
          obtain ⟨b, r⟩ := p
          obtain ⟨b', r'⟩ := q
          have ht := splitFirst_eq_append hopen
          have ht' := splitFirst_eq_append hclose
          have hcut : newlinesFrom false (b ++ opening) = newlinesFrom false b ++ opening := by
            rw [newlinesFrom_append_of_head (by simpa using ho.head_ne hone [])]
            have := newlinesFrom_append ho []
            simp only [List.append_nil, newlinesFrom_nil] at this
            rw [this]
          simp only [find, hopen, hclose, Option.map_some, universalNewlines]
          by_cases hlt : b'.length < b.length + opening.length
          · rw [if_pos hlt, if_pos, Option.map_none]
            -- The closing marker starts inside `b ++ opening`, and still does after it.
            obtain ⟨z, hz⟩ : ∃ z, b ++ opening = b' ++ z :=
              List.prefix_of_prefix_length_le ⟨closing ++ r', by rw [ht', List.append_assoc]⟩
                ⟨r, ht.symm⟩ (by simp; omega) |>.imp fun z hz => hz.symm
            have hzne : z ≠ [] := by
              rintro rfl
              have := congrArg List.length hz
              simp at this
              omega
            obtain ⟨c, z, rfl⟩ := List.exists_cons_of_ne_nil hzne
            obtain ⟨d, closing, rfl⟩ := List.exists_cons_of_ne_nil hcne
            obtain rfl : c = d := by
              have hboth : b' ++ (c :: z) ++ r = b' ++ (d :: closing) ++ r' := by
                rw [← hz, ← ht, ← ht']
              simp only [List.append_assoc, List.cons_append] at hboth
              exact (List.cons.inj (List.append_cancel_left hboth)).1
            obtain ⟨hccr, hclf⟩ := hc c List.mem_cons_self
            have hlen := congrArg List.length hcut
            rw [hz, newlinesFrom_append_of_head (by simpa using hclf),
              newlinesFrom_cons hccr hclf] at hlen
            simp at hlen
            omega
          · obtain ⟨body, hbody⟩ : ∃ body, b' = b ++ opening ++ body :=
              List.prefix_of_prefix_length_le ⟨r, ht.symm⟩
                ⟨closing ++ r', by rw [ht', List.append_assoc]⟩ (by simp; omega) |>.imp
                fun body h => h.symm
            have hb' : newlinesFrom false b' =
                newlinesFrom false b ++ opening ++ newlinesFrom false body := by
              rw [hbody, List.append_assoc, newlinesFrom_append_of_head (ho.head_ne hone body),
                newlinesFrom_append ho, List.append_assoc]
            have htail : newlinesFrom false t =
                newlinesFrom false b' ++ newlinesFrom false (closing ++ r') := by
              rw [ht', List.append_assoc, newlinesFrom_append_of_head (hc.head_ne hcne r')]
            rw [if_neg hlt, if_neg (by rw [hb']; simp), Option.map_some]
            simp only [slice]
            rw [htail, List.take_left, hb', ht', List.append_assoc b', List.take_left, hbody]
            simp only [List.append_assoc, ← List.length_append, universalNewlines]
            rw [← List.append_assoc, List.drop_left, ← List.append_assoc, List.drop_left]

end AgentOrch.Py
