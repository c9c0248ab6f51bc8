import AgentOrch.Framework.Numbers
import AgentOrch.Framework.Occurrences
import AgentOrch.Framework.RegexLanguage

/-!
# Lines, white space and letters

Where the lines of a text stand in it, what stripping leaves of a text, and which texts become a
word in lower case.
-/

namespace AgentOrch.Py

/-! ## Lines -/

/-- No character of the text ends a line. -/
def OneLine (t : Text) : Prop := ∀ c ∈ t, isLineBreak c = false

/-- The text ends where a line begins. -/
def EndsLine (t : Text) : Prop := ∀ c ∈ t.getLast?, isLineBreak c = true

/-- The text begins where a line ends. -/
def BeginsAfterLine (t : Text) : Prop := ∀ c ∈ t.head?, isLineBreak c = true

lemma OneLine.append {s t : Text} (hs : OneLine s) (ht : OneLine t) : OneLine (s ++ t) := by
  intro c hc
  rcases List.mem_append.mp hc with hc | hc
  · exact hs c hc
  · exact ht c hc

/-- Of two ways to go on with a text, one that begins with a line break leaves the text a line. -/
private lemma mem_splitlinesFrom_iff {l : Text} (hl : l ≠ []) (t : Text) :
    ∀ {line : Text} {afterCr : Bool}, OneLine line → (afterCr = true → line = []) →
      (l ∈ splitlinesFrom line afterCr t ↔
        (∃ x z, t = x ++ z ∧ l = line ++ x ∧ OneLine x ∧ BeginsAfterLine z) ∨
          ∃ a z, t = a ++ l ++ z ∧ a ≠ [] ∧ EndsLine a ∧ OneLine l ∧ BeginsAfterLine z) := by
  induction t with
  | nil =>
      intro line afterCr hline hcr
      have hright : ¬∃ a z, ([] : Text) = a ++ l ++ z ∧ a ≠ [] ∧ EndsLine a ∧ OneLine l ∧
          BeginsAfterLine z := by
        rintro ⟨a, z, ht, ha, -⟩
        exact ha (List.append_eq_nil_iff.mp (List.append_eq_nil_iff.mp ht.symm).1).1
      rw [or_iff_left hright, splitlinesFrom]
      constructor
      · intro hmem
        have hl' : l = line := by
          split at hmem
          · exact absurd hmem List.not_mem_nil
          · exact List.mem_singleton.mp hmem
        exact ⟨[], [], rfl, by rw [hl', List.append_nil], by simp [OneLine],
          by simp [BeginsAfterLine]⟩
      · rintro ⟨x, z, ht, rfl, -⟩
        obtain ⟨rfl, rfl⟩ := List.append_eq_nil_iff.mp ht.symm
        rw [List.append_nil] at hl ⊢
        rw [if_neg (by simpa using hl)]
        exact List.mem_singleton_self _
  | cons c t ih =>
      intro line afterCr hline hcr
      rw [splitlinesFrom]
      have hnil : OneLine [] := by simp [OneLine]
      -- a line that begins behind `c`
      have hbehind : isLineBreak c = true →
          ((∃ x z, t = x ++ z ∧ l = [] ++ x ∧ OneLine x ∧ BeginsAfterLine z) ∨
              ∃ a z, t = a ++ l ++ z ∧ a ≠ [] ∧ EndsLine a ∧ OneLine l ∧ BeginsAfterLine z) →
            ∃ a z, c :: t = a ++ l ++ z ∧ a ≠ [] ∧ EndsLine a ∧ OneLine l ∧ BeginsAfterLine z := by
        rintro hc (⟨x, z, rfl, rfl, hx, hz⟩ | ⟨a, z, rfl, ha, hends, hl', hz⟩)
        · exact ⟨[c], z, rfl, by simp, by simpa [EndsLine] using hc, hx, hz⟩
        · refine ⟨c :: a, z, rfl, by simp, ?_, hl', hz⟩
          rw [EndsLine, List.getLast?_cons_of_ne_nil ha]
          exact hends
      have hahead : (∃ a z, c :: t = a ++ l ++ z ∧ a ≠ [] ∧ EndsLine a ∧ OneLine l ∧
          BeginsAfterLine z) →
          (isLineBreak c = true ∧ ∃ x z, t = x ++ z ∧ l = [] ++ x ∧ OneLine x ∧
              BeginsAfterLine z) ∨
            ∃ a z, t = a ++ l ++ z ∧ a ≠ [] ∧ EndsLine a ∧ OneLine l ∧ BeginsAfterLine z := by
        rintro ⟨a, z, ht, ha, hends, hl', hz⟩
        obtain ⟨d, a, rfl⟩ := List.exists_cons_of_ne_nil ha
        rw [List.cons_append, List.cons_append, List.cons.injEq] at ht
        obtain ⟨rfl, rfl⟩ := ht
        cases a with
        | nil => exact .inl ⟨hends c (by simp), l, z, rfl, rfl, hl', hz⟩
        | cons d a =>
            refine .inr ⟨d :: a, z, rfl, by simp, ?_, hl', hz⟩
            rwa [EndsLine, List.getLast?_cons_of_ne_nil (by simp)] at hends
      by_cases hskip : (afterCr && c == 0x0A) = true
      · rw [if_pos hskip]
        obtain ⟨hafter, hc⟩ := (Bool.and_eq_true _ _).mp hskip
        obtain rfl := hcr hafter
        have hbreak : isLineBreak c = true := by
          rw [eq_of_beq hc]
          decide
        rw [ih hnil (by simp)]
        constructor
        · exact fun h => .inr (hbehind hbreak h)
        · rintro (⟨x, z, ht, rfl, hx, hz⟩ | h)
          · obtain ⟨d, x, rfl⟩ := List.exists_cons_of_ne_nil hl
            rw [List.cons_append, List.cons.injEq] at ht
            have hd := hx d List.mem_cons_self
            rw [← ht.1, hbreak] at hd
            exact absurd hd (by decide)
          · exact (hahead h).imp_left fun h => h.2
      · rw [if_neg hskip]
        by_cases hbreak : isLineBreak c = true
        · rw [if_pos hbreak, List.mem_cons, ih hnil fun _ => rfl]
          constructor
          · rintro (rfl | h)
            · exact .inl ⟨[], c :: t, rfl, (List.append_nil _).symm, hnil,
                by simpa [BeginsAfterLine] using hbreak⟩
            · exact .inr (hbehind hbreak h)
          · rintro (⟨x, z, ht, rfl, hx, hz⟩ | h)
            · cases x with
              | nil => exact .inl (List.append_nil _)
              | cons d x =>
                  rw [List.cons_append, List.cons.injEq] at ht
                  have hd := hx d List.mem_cons_self
                  rw [← ht.1, hbreak] at hd
                  exact absurd hd (by decide)
            · exact .inr ((hahead h).imp_left fun h => h.2)
        · have hc := (Bool.not_eq_true _).mp hbreak
          rw [if_neg hbreak, ih (hline.append (by simpa [OneLine] using hc)) (by simp)]
          constructor
          · rintro (⟨x, z, rfl, rfl, hx, hz⟩ | ⟨a, z, rfl, ha, hends, hl', hz⟩)
            · refine .inl ⟨c :: x, z, rfl, by simp, ?_, hz⟩
              exact OneLine.append (s := [c]) (by simpa [OneLine] using hc) hx
            · refine .inr ⟨c :: a, z, rfl, by simp, ?_, hl', hz⟩
              rw [EndsLine, List.getLast?_cons_of_ne_nil ha]
              exact hends
          · rintro (⟨x, z, ht, rfl, hx, hz⟩ | h)
            · cases x with
              | nil =>
                  have hz' : isLineBreak c = true := hz c (by rw [← List.nil_append z, ← ht]; simp)
                  exact absurd hz' hbreak
              | cons d x =>
                  rw [List.cons_append, List.cons.injEq] at ht
                  obtain ⟨rfl, rfl⟩ := ht
                  exact .inl ⟨x, z, rfl, by simp, fun d hd => hx d (List.mem_cons_of_mem c hd), hz⟩
            · exact .inr ((hahead h).resolve_left fun h => hbreak h.1)

/-- A line of a text that is not empty stands between two line breaks. -/
theorem mem_splitlines_iff {l t : Text} (hl : l ≠ []) : l ∈ splitlines t ↔
    ∃ a z, t = a ++ l ++ z ∧ OneLine l ∧ EndsLine a ∧ BeginsAfterLine z := by
  rw [splitlines, mem_splitlinesFrom_iff hl t (by simp [OneLine]) (by simp)]
  constructor
  · rintro (⟨x, z, ht, rfl, hx, hz⟩ | ⟨a, z, ht, -, hends, hl', hz⟩)
    · exact ⟨[], z, ht, hx, by simp [EndsLine], hz⟩
    · exact ⟨a, z, ht, hl', hends, hz⟩
  · rintro ⟨a, z, ht, hl', hends, hz⟩
    by_cases ha : a = []
    · subst ha
      exact .inl ⟨l, z, ht, rfl, hl', hz⟩
    · exact .inr ⟨a, z, ht, ha, hends, hl', hz⟩

instance (t : Text) : Decidable (OneLine t) := List.decidableBAll _ t

lemma splitlinesFrom_cons (line : Text) (c : CodePoint) (t : Text) :
    splitlinesFrom line false (c :: t) =
      if isLineBreak c then line :: splitlinesFrom [] (c == 0x0D) t
      else splitlinesFrom (line ++ [c]) false t := by
  rw [splitlinesFrom, Bool.false_and, if_neg Bool.false_ne_true]

/-- A text that is one line is its only line. -/
lemma splitlines_of_oneLine {t : Text} (h : OneLine t) (hne : t ≠ []) : splitlines t = [t] := by
  have key : ∀ (t line : Text), OneLine t →
      splitlinesFrom line false t = if (line ++ t).isEmpty then [] else [line ++ t] := by
    intro t
    induction t with
    | nil => intro line _; rw [splitlinesFrom, List.append_nil]
    | cons c t ih =>
        intro line h
        have hc := h c List.mem_cons_self
        rw [splitlinesFrom_cons, if_neg (by simp [hc]),
          ih _ fun d hd => h d (List.mem_cons_of_mem c hd), List.append_assoc]
        rfl
  rw [splitlines, key t [] h, List.nil_append, if_neg (by simpa using hne)]

/-! ## Lines that end in a newline or a carriage return -/

def isLineEnd (c : CodePoint) : Bool := c == 0x0D || c == 0x0A

/-- The lines of a text in the narrow sense: no other character ends one. -/
def plainLines (t : Text) : List Text := t.splitOnP isLineEnd

lemma isLineEnd_iff {c : CodePoint} : isLineEnd c = true ↔ c = 0x0D ∨ c = 0x0A := by
  simp [isLineEnd]

lemma lineFree_iff {t : Text} : LineFree t ↔ ∀ c ∈ t, isLineEnd c = false := by
  simp only [LineFree, isLineEnd, Bool.or_eq_false_iff, beq_eq_false_iff_ne]

lemma plainLines_of_lineFree {t : Text} (h : LineFree t) : plainLines t = [t] :=
  List.splitOnP_eq_singleton (lineFree_iff.mp h)

lemma plainLines_append {a : Text} (h : LineFree a) {c : CodePoint} (hc : isLineEnd c = true)
    (b : Text) : plainLines (a ++ c :: b) = a :: plainLines b :=
  List.splitOnP_append_cons_of_forall_mem (lineFree_iff.mp h) c hc b

/-- What holds of a single line, and of a line in front of what it holds of, holds of a text. -/
lemma plainLines_induction {P : Text → Prop} (last : ∀ t, LineFree t → P t)
    (step : ∀ a c b, LineFree a → isLineEnd c = true → P b → P (a ++ c :: b)) (t : Text) : P t := by
  induction hn : t.length using Nat.strong_induction_on generalizing t with
  | _ n ih =>
      by_cases hfree : LineFree t
      · exact last t hfree
      · have hsplit := List.takeWhile_append_dropWhile (p := fun c => !isLineEnd c) (l := t)
        have ha : LineFree (t.takeWhile fun c => !isLineEnd c) :=
          lineFree_iff.mpr fun c hc => by simpa using List.mem_takeWhile_imp hc
        cases hdrop : t.dropWhile fun c => !isLineEnd c with
        | nil =>
            rw [hdrop, List.append_nil] at hsplit
            rw [hsplit] at ha
            exact absurd ha hfree
        | cons c b =>
            have hc := List.head?_dropWhile_not (fun c => !isLineEnd c) t
            rw [hdrop] at hsplit hc
            have hend : isLineEnd c = true := by simpa using hc
            rw [← hsplit]
            refine step _ c b ha hend (ih b.length ?_ b rfl)
            rw [← hn, ← hsplit, List.length_append, List.length_cons]
            omega

lemma lineFree_of_mem_plainLines {t : Text} : ∀ {l : Text}, l ∈ plainLines t → LineFree l := by
  induction t using plainLines_induction with
  | last t h =>
      intro l hl
      rw [plainLines_of_lineFree h, List.mem_singleton] at hl
      exact hl ▸ h
  | step a c b ha hc ih =>
      intro l hl
      rw [plainLines_append ha hc] at hl
      rcases List.mem_cons.mp hl with rfl | hl
      · exact ha
      · exact ih hl

section FilterMap

variable {α : Type} {f : Text → Option α} (hf : f [] = none)

include hf

/-- A newline that belongs to the boundary before it leaves nothing. -/
private lemma filterMap_splitlinesFrom_afterCr (b : Text) :
    (splitlinesFrom [] true b).filterMap f = (splitlines b).filterMap f := by
  cases b with
  | nil => rfl
  | cons c b =>
      rw [splitlines, splitlinesFrom_cons, splitlinesFrom]
      by_cases hc : c = 0x0A
      · subst hc
        have hbreak : isLineBreak 0x0A = true := by decide
        have hcr : ((0x0A : CodePoint) == 0x0D) = false := by decide
        simp [hbreak, hcr, hf]
      · have hne : (c == 0x0A) = false := beq_eq_false_iff_ne.mpr hc
        rw [hne, Bool.and_false, if_neg Bool.false_ne_true]

private lemma filterMap_splitlinesFrom {a : Text} (ha : LineFree a) {c : CodePoint}
    (hc : isLineEnd c = true) (b : Text) : ∀ line : Text,
    (splitlinesFrom line false (a ++ c :: b)).filterMap f =
      (splitlinesFrom line false a).filterMap f ++ (splitlines b).filterMap f := by
  induction a with
  | nil =>
      intro line
      have hbreak : isLineBreak c = true := by
        rcases isLineEnd_iff.mp hc with rfl | rfl <;> decide
      have hrest : (splitlinesFrom [] (c == 0x0D) b).filterMap f = (splitlines b).filterMap f := by
        cases hcr : (c == 0x0D) with
        | true => exact filterMap_splitlinesFrom_afterCr hf b
        | false => rfl
      rw [List.nil_append, splitlinesFrom_cons, if_pos hbreak, splitlinesFrom,
        List.filterMap_cons, hrest]
      cases line with
      | nil => simp [hf]
      | cons d line =>
          simp only [List.isEmpty_cons, Bool.false_eq_true, if_false, List.filterMap_cons]
          cases f (d :: line) <;> rfl
  | cons d a ih =>
      intro line
      have hd := ha d List.mem_cons_self
      have ha' : LineFree a := fun e he => ha e (List.mem_cons_of_mem d he)
      have hcr : (d == 0x0D) = false := beq_eq_false_iff_ne.mpr hd.1
      rw [List.cons_append, splitlinesFrom_cons, splitlinesFrom_cons, hcr]
      split
      · simp only [List.filterMap_cons, ih ha']
        cases f line <;> rfl
      · exact ih ha' _

/-- What is found among the pieces of a text is found among those of its lines. -/
theorem filterMap_splitlines (t : Text) :
    (splitlines t).filterMap f = (plainLines t).flatMap fun l => (splitlines l).filterMap f := by
  induction t using plainLines_induction with
  | last t h => rw [plainLines_of_lineFree h, List.flatMap_singleton]
  | step a c b ha hc ih =>
      rw [plainLines_append ha hc, List.flatMap_cons, ← ih]
      exact filterMap_splitlinesFrom hf ha hc b []

end FilterMap

/-! ## White space -/

/-- The text is white space throughout. -/
def Blank (t : Text) : Prop := ∀ c ∈ t, isSpace c = true

@[simp] lemma blank_nil : Blank [] := by simp [Blank]

@[simp] lemma blank_append {s t : Text} : Blank (s ++ t) ↔ Blank s ∧ Blank t := by
  simp only [Blank, List.mem_append]
  exact ⟨fun h => ⟨fun c hc => h c (.inl hc), fun c hc => h c (.inr hc)⟩,
    fun h c hc => hc.elim (h.1 c) (h.2 c)⟩

/-- The text begins and ends with a character that is no white space. -/
structure Bounded (t : Text) : Prop where
  ne_nil : t ≠ []
  first : ∀ c ∈ t.head?, isSpace c = false
  last : ∀ c ∈ t.getLast?, isSpace c = false

/-- What is stripped off a text is white space. -/
lemma exists_strip (t : Text) : ∃ w w', t = w ++ strip t ++ w' ∧ Blank w ∧ Blank w' := by
  refine ⟨t.takeWhile isSpace, ((lstrip t).reverse.takeWhile isSpace).reverse, ?_, ?_, ?_⟩
  · have hright : strip t ++ ((lstrip t).reverse.takeWhile isSpace).reverse = lstrip t := by
      rw [strip, rstrip, ← List.reverse_append, List.takeWhile_append_dropWhile,
        List.reverse_reverse]
    rw [List.append_assoc, hright]
    exact (List.takeWhile_append_dropWhile).symm
  · exact fun c hc => List.mem_takeWhile_imp hc
  · exact fun c hc => List.mem_takeWhile_imp (List.mem_reverse.mp hc)

/-- Stripping reaches from the front to the core of a text, and from the back. -/
lemma strip_around {a core b : Text} (hcore : Bounded core) (hb : Blank b) :
    strip (a ++ core ++ b) = a.dropWhile isSpace ++ core := by
  have hfirst : core.dropWhile isSpace = core := by
    obtain ⟨c, rest, hc⟩ := List.exists_cons_of_ne_nil hcore.ne_nil
    have hspace := hcore.first c (by rw [hc]; rfl)
    rw [hc, List.dropWhile_cons, if_neg (by simp [hspace])]
  have hleft : lstrip (a ++ core ++ b) = a.dropWhile isSpace ++ core ++ b := by
    rw [lstrip, List.append_assoc, List.dropWhile_append, List.append_assoc]
    split
    · next hnil =>
      rw [List.isEmpty_iff] at hnil
      rw [hnil, List.nil_append]
      obtain ⟨c, rest, hc⟩ := List.exists_cons_of_ne_nil hcore.ne_nil
      have hspace := hcore.first c (by rw [hc]; rfl)
      rw [hc, List.cons_append, List.dropWhile_cons, if_neg (by simp [hspace])]
    · rfl
  have hne : a.dropWhile isSpace ++ core ≠ [] := by simp [hcore.ne_nil]
  have hbounded : ∀ c ∈ (a.dropWhile isSpace ++ core).head?, isSpace c = false := by
    intro c hc
    cases hdrop : a.dropWhile isSpace with
    | nil =>
        rw [hdrop, List.nil_append] at hc
        exact hcore.first c hc
    | cons d rest =>
        have hnot := List.head?_dropWhile_not isSpace a
        rw [hdrop] at hnot hc
        obtain rfl : d = c := by simpa using hc
        exact hnot
  have hlast : ∀ c ∈ (a.dropWhile isSpace ++ core).getLast?, isSpace c = false := by
    intro c hc
    rw [List.getLast?_append_of_ne_nil _ hcore.ne_nil] at hc
    exact hcore.last c hc
  have hstrip := strip_append_blank hbounded hlast hne hb
  have hagain : lstrip (a.dropWhile isSpace ++ core ++ b) = a.dropWhile isSpace ++ core ++ b := by
    rw [← hleft, lstrip, lstrip, List.dropWhile_idempotent]
  rw [strip, hleft, ← hagain]
  exact hstrip

/-- A bounded text is what stripping leaves of it in white space. -/
lemma strip_blank_around {w core w' : Text} (hcore : Bounded core) (hw : Blank w)
    (hw' : Blank w') : strip (w ++ core ++ w') = core := by
  rw [strip_around hcore hw', List.dropWhile_eq_nil_iff.mpr hw, List.nil_append]

/-- Splitting at the first of a character that was not there before. -/
lemma splitFirst_of_notMem {c : CodePoint} {s t : Text} (h : c ∉ s) :
    splitFirst [c] (s ++ c :: t) = some (s, t) := by
  induction s with
  | nil => simp [splitFirst]
  | cons d s ih =>
      rw [List.mem_cons, not_or] at h
      have hne : ([c] : Text).isPrefixOf (d :: (s ++ c :: t)) = false := by
        have hcd : (c == d) = false := beq_eq_false_iff_ne.mpr h.1
        show (c == d && _) = false
        rw [hcd, Bool.false_and]
      rw [List.cons_append, splitFirst, hne, ih h.2]
      rfl

/-! ## Letters -/

lemma val_asciiLower (c : CodePoint) : (asciiLower c).val =
    if 0x41 ≤ c.val ∧ c.val ≤ 0x5A then c.val + 0x20 else c.val := by
  rw [asciiLower]
  split
  · rw [Fin.val_ofNat]
    omega
  · rfl

/-- A lower-case ASCII letter that no character outside ASCII is lowered to. -/
def isPlainLetter (c : CodePoint) : Bool := 0x61 ≤ c.val && c.val ≤ 0x7A && c.val != 0x6B

/-- In ASCII, the texts that spell a word are those that become it in lower case. -/
lemma map_asciiLower_iff {w : Text} (hw : ∀ c ∈ w, isPlainLetter c = true) : ∀ {x : Text},
    x.map asciiLower = w ↔ Regex.Spells w x ∧ ∀ c ∈ x, c.val < 0x80 := by
  induction w with
  | nil =>
      intro x
      rw [List.map_eq_nil_iff]
      constructor
      · rintro rfl
        exact ⟨.nil, by simp⟩
      · rintro ⟨⟨⟩, -⟩
        rfl
  | cons a w ih =>
      intro x
      have ha := hw a List.mem_cons_self
      cases x with
      | nil => exact iff_of_false (by simp) (by rintro ⟨⟨⟩, -⟩)
      | cons b x =>
          have hletter : asciiLower b = a ↔ Regex.sameLetter a b = true ∧ b.val < 0x80 := by
            simp only [isPlainLetter, Bool.and_eq_true, decide_eq_true_eq, bne_iff_ne] at ha
            rw [Fin.ext_iff, val_asciiLower]
            simp only [Regex.sameLetter, beq_iff_eq]
            split_ifs <;> omega
          have hrest := ih (fun c hc => hw c (List.mem_cons_of_mem a hc)) (x := x)
          have hcons : Regex.Spells (a :: w) (b :: x) ↔
              Regex.sameLetter a b = true ∧ Regex.Spells w x := List.forall₂_cons
          rw [List.map_cons, List.cons.injEq, hletter, hrest, hcons, List.forall_mem_cons]
          tauto

/-- `str.lower`.  Of the characters outside ASCII the Kelvin sign alone is lowered to an ASCII
letter, a `k`. -/
structure Lowering where
  lower : Text → Text
  lower_eq_iff : ∀ t w, (∀ c ∈ w, isPlainLetter c = true) → (lower t = w ↔ t.map asciiLower = w)

/-- The lowering of ASCII texts. -/
def Lowering.ascii : Lowering where
  lower := List.map asciiLower
  lower_eq_iff _ _ _ := Iff.rfl

end AgentOrch.Py
