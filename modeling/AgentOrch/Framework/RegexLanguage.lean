import AgentOrch.Framework.Regex

/-!
# What a pattern matches

The matcher tries the ways through a pattern in a fixed order and gives up a way that fails later
on.  Whether it finds a match at all depends on no order: `Matches` says which positions a pattern
leads to, and a search finds something if and only if some position leads somewhere.
-/

namespace AgentOrch

open Py

namespace Regex

/-- The pattern leads from one position to another. -/
inductive Matches (word : CodePoint → Bool) : Regex → Cursor → Cursor → Prop
  | empty (c : Cursor) : Matches word .empty c c
  | set {p : CodePoint → Bool} {a : CodePoint} (before rest : Text) (h : p a = true) :
      Matches word (.set p) ⟨before, a :: rest⟩ ⟨a :: before, rest⟩
  | seq {r s : Regex} {c d e : Cursor} (hr : Matches word r c d) (hs : Matches word s d e) :
      Matches word (.seq r s) c e
  | altLeft {r : Regex} (s : Regex) {c d : Cursor} (h : Matches word r c d) :
      Matches word (.alt r s) c d
  | altRight (r : Regex) {s : Regex} {c d : Cursor} (h : Matches word s c d) :
      Matches word (.alt r s) c d
  | done (r : Regex) (c : Cursor) : Matches word (.star r) c c
  | more {r : Regex} {c d e : Cursor} (hr : Matches word r c d)
      (hrs : Matches word (.star r) d e) : Matches word (.star r) c e
  | lineStart {c : Cursor} (h : c.atLineStart = true) : Matches word .lineStart c c
  | lineEnd {c : Cursor} (h : c.atLineEnd = true) : Matches word .lineEnd c c
  | wordBoundary {c : Cursor} (h : (c.before.head?.any word != c.after.head?.any word) = true) :
      Matches word .wordBoundary c c
  | group {r : Regex} {c d : Cursor} (h : Matches word r c d) : Matches word (.group r) c d

section
variable {word : CodePoint → Bool} {r s : Regex} {c d e : Cursor}

/-- A match goes forward, or nowhere. -/
lemma Matches.forward (h : Matches word r c d) : d.after.length < c.after.length ∨ d = c := by
  induction h with
  | empty _ => exact .inr rfl
  | set before rest _ => exact .inl (Nat.lt_succ_self _)
  | seq _ _ ihr ihs =>
      rcases ihr with hr | rfl
      · rcases ihs with hs | rfl
        · exact .inl (hs.trans hr)
        · exact .inl hr
      · exact ihs
  | altLeft _ _ ih => exact ih
  | altRight _ _ ih => exact ih
  | done _ _ => exact .inr rfl
  | more _ _ ihr ihs =>
      rcases ihr with hr | rfl
      · rcases ihs with hs | rfl
        · exact .inl (hs.trans hr)
        · exact .inl hr
      · exact ihs
  | lineStart _ => exact .inr rfl
  | lineEnd _ => exact .inr rfl
  | wordBoundary _ => exact .inr rfl
  | group _ ih => exact ih

/-- Rounds that go nowhere can be left out. -/
lemma Matches.star_cases (h : Matches word (.star r) c e) :
    e = c ∨ ∃ d, Matches word r c d ∧ d.after.length < c.after.length ∧
      Matches word (.star r) d e := by
  generalize hstar : Regex.star r = r' at h
  induction h with
  | done _ _ => exact .inl rfl
  | @more r' c d e hr hrs _ ih =>
      obtain rfl : r = r' := Regex.star.inj hstar
      rcases hr.forward with hlt | rfl
      · exact .inr ⟨d, hr, hlt, hrs⟩
      · exact ih rfl
  | _ => exact absurd hstar (by simp)

private lemma isSome_orElse {α : Type} {a : Option α} {b : Unit → Option α} :
    (a.orElse b).isSome = true ↔ a.isSome = true ∨ (b ()).isSome = true := by
  cases a <;> simp

lemma starLoop_isSome_iff {α : Type}
    {step : Cursor → Option Text → (Cursor → Option Text → Option α) → Option α}
    (hstep : ∀ {c : Cursor} {cap : Option Text} {k : Cursor → Option Text → Option α}
      {Q : Cursor → Prop}, (∀ d cap', (k d cap').isSome = true ↔ Q d) →
        ((step c cap k).isSome = true ↔ ∃ d, Matches word r c d ∧ Q d))
    {k : Cursor → Option Text → Option α} {Q : Cursor → Prop}
    (hk : ∀ d cap', (k d cap').isSome = true ↔ Q d) (n : ℕ) :
    ∀ {c : Cursor} (cap : Option Text), c.after.length ≤ n →
      ((starLoop step n c cap k).isSome = true ↔ ∃ d, Matches word (.star r) c d ∧ Q d) := by
  induction n with
  | zero =>
      intro c cap hc
      rw [starLoop, hk]
      constructor
      · intro hq
        exact ⟨c, .done r c, hq⟩
      · rintro ⟨d, hd, hq⟩
        obtain rfl : d = c := hd.forward.resolve_left (by omega)
        exact hq
  | succ n ih =>
      intro c cap hc
      have hround : ∀ d cap', (if d.after.length < c.after.length then starLoop step n d cap' k
          else none).isSome = true ↔
            d.after.length < c.after.length ∧ ∃ e, Matches word (.star r) d e ∧ Q e := by
        intro d cap'
        by_cases hlt : d.after.length < c.after.length
        · rw [if_pos hlt, ih cap' (by omega)]
          exact (and_iff_right hlt).symm
        · rw [if_neg hlt]
          exact iff_of_false (by simp) fun h => hlt h.1
      rw [starLoop, isSome_orElse, hstep hround, hk]
      constructor
      · rintro (⟨d, hd, -, e, he, hq⟩ | hq)
        · exact ⟨e, .more hd he, hq⟩
        · exact ⟨c, .done r c, hq⟩
      · rintro ⟨e, he, hq⟩
        rcases he.star_cases with rfl | ⟨d, hd, hlt, hde⟩
        · exact .inr hq
        · exact .inl ⟨d, hd, hlt, e, hde, hq⟩

/-- The matcher succeeds if and only if the pattern leads to a position from which the rest of it
does. -/
theorem exec_isSome_iff {α : Type} (r : Regex) :
    ∀ {c : Cursor} {cap : Option Text} {k : Cursor → Option Text → Option α} {Q : Cursor → Prop},
      (∀ d cap', (k d cap').isSome = true ↔ Q d) →
        ((exec word r c cap k).isSome = true ↔ ∃ d, Matches word r c d ∧ Q d) := by
  induction r with
  | empty =>
      intro c cap k Q hk
      rw [exec, hk]
      constructor
      · intro hq
        exact ⟨c, .empty c, hq⟩
      · rintro ⟨d, ⟨⟩, hq⟩
        exact hq
  | set p =>
      intro c cap k Q hk
      obtain ⟨before, after⟩ := c
      cases after with
      | nil =>
          simp only [exec]
          exact iff_of_false (by simp) (by rintro ⟨d, ⟨⟩, -⟩)
      | cons a rest =>
          simp only [exec]
          by_cases hp : p a = true
          · rw [if_pos hp, hk]
            constructor
            · intro hq
              exact ⟨_, .set before rest hp, hq⟩
            · rintro ⟨d, ⟨⟩, hq⟩
              exact hq
          · rw [if_neg hp]
            refine iff_of_false (by simp) ?_
            rintro ⟨d, hd, -⟩
            cases hd with
            | set _ _ hp' => exact hp hp'
  | seq r s ihr ihs =>
      intro c cap k Q hk
      have hrest : ∀ d cap', (exec word s d cap' k).isSome = true ↔
          ∃ e, Matches word s d e ∧ Q e := fun d cap' => ihs hk
      rw [exec, ihr hrest]
      constructor
      · rintro ⟨d, hd, e, he, hq⟩
        exact ⟨e, .seq hd he, hq⟩
      · rintro ⟨e, ⟨⟩, hq⟩
        exact ⟨_, ‹_›, _, ‹_›, hq⟩
  | alt r s ihr ihs =>
      intro c cap k Q hk
      rw [exec, isSome_orElse, ihr hk, ihs hk]
      constructor
      · rintro (⟨d, hd, hq⟩ | ⟨d, hd, hq⟩)
        · exact ⟨d, .altLeft s hd, hq⟩
        · exact ⟨d, .altRight r hd, hq⟩
      · rintro ⟨d, ⟨⟩ | ⟨⟩, hq⟩
        · exact .inl ⟨d, ‹_›, hq⟩
        · exact .inr ⟨d, ‹_›, hq⟩
  | star r ih =>
      intro c cap k Q hk
      rw [exec]
      exact starLoop_isSome_iff ih hk _ cap le_rfl
  | lineStart =>
      intro c cap k Q hk
      rw [exec]
      by_cases h : c.atLineStart = true
      · rw [if_pos h, hk]
        constructor
        · intro hq
          exact ⟨c, .lineStart h, hq⟩
        · rintro ⟨d, ⟨⟩, hq⟩
          exact hq
      · rw [if_neg h]
        refine iff_of_false (by simp) ?_
        rintro ⟨d, hd, -⟩
        cases hd with
        | lineStart h' => exact h h'
  | lineEnd =>
      intro c cap k Q hk
      rw [exec]
      by_cases h : c.atLineEnd = true
      · rw [if_pos h, hk]
        constructor
        · intro hq
          exact ⟨c, .lineEnd h, hq⟩
        · rintro ⟨d, ⟨⟩, hq⟩
          exact hq
      · rw [if_neg h]
        refine iff_of_false (by simp) ?_
        rintro ⟨d, hd, -⟩
        cases hd with
        | lineEnd h' => exact h h'
  | wordBoundary =>
      intro c cap k Q hk
      rw [exec]
      by_cases h : (c.before.head?.any word != c.after.head?.any word) = true
      · rw [if_pos h, hk]
        constructor
        · intro hq
          exact ⟨c, .wordBoundary h, hq⟩
        · rintro ⟨d, ⟨⟩, hq⟩
          exact hq
      · rw [if_neg h]
        refine iff_of_false (by simp) ?_
        rintro ⟨d, hd, -⟩
        cases hd with
        | wordBoundary h' => exact h h'
  | group r ih =>
      intro c cap k Q hk
      rw [exec, ih fun d cap' => hk d _]
      constructor
      · rintro ⟨d, hd, hq⟩
        exact ⟨d, .group hd, hq⟩
      · rintro ⟨d, ⟨⟩, hq⟩
        exact ⟨d, ‹_›, hq⟩

lemma matchAt_isSome_iff : (matchAt word r c).isSome = true ↔ ∃ d, Matches word r c d := by
  rw [matchAt, exec_isSome_iff (Q := fun _ => True) r fun d cap => by simp]
  simp

end

/-! ## Searching -/

/-- Reading `x` leads from one position to the other. -/
structure Reads (c : Cursor) (x : Text) (d : Cursor) : Prop where
  after : c.after = x ++ d.after
  before : d.before = x.reverse ++ c.before

section
variable {word : CodePoint → Bool} {r s : Regex} {c d e : Cursor} {x y : Text}

lemma reads_nil : Reads c [] d ↔ d = c := by
  obtain ⟨before, after⟩ := c
  obtain ⟨before', after'⟩ := d
  constructor
  · rintro ⟨ha, hb⟩
    simp only [List.nil_append, List.reverse_nil] at ha hb
    rw [ha, hb]
  · rintro ⟨⟩
    exact ⟨rfl, rfl⟩

lemma reads_append : Reads c (x ++ y) e ↔ ∃ d, Reads c x d ∧ Reads d y e := by
  constructor
  · rintro ⟨ha, hb⟩
    refine ⟨⟨x.reverse ++ c.before, y ++ e.after⟩, ⟨?_, rfl⟩, ⟨rfl, ?_⟩⟩
    · rw [ha, List.append_assoc]
    · rw [hb, List.reverse_append, List.append_assoc]
  · rintro ⟨d, ⟨ha, hb⟩, ⟨ha', hb'⟩⟩
    exact ⟨by rw [ha, ha', List.append_assoc],
      by rw [hb', hb, List.reverse_append, List.append_assoc]⟩

/-- A position of a text is what one has read from its start. -/
lemma text_eq_iff {t : Text} : c.text = t ↔ Reads (.start t) c.before.reverse c := by
  constructor
  · rintro rfl
    exact ⟨rfl, by simp [Cursor.start]⟩
  · rintro ⟨ha, -⟩
    exact ha.symm

lemma searchFrom_isSome_iff (n : ℕ) : ∀ {c : Cursor}, c.after.length < n →
    ((searchFrom word r n c).isSome = true ↔ ∃ x d e, Reads c x d ∧ Matches word r d e) := by
  induction n with
  | zero => exact fun h => absurd h (Nat.not_lt_zero _)
  | succ n ih =>
      intro c hc
      rw [searchFrom]
      cases hmatch : matchAt word r c with
      | some found =>
          obtain ⟨d, hd⟩ := matchAt_isSome_iff.mp (Option.isSome_of_mem hmatch)
          exact iff_of_true rfl ⟨[], c, d, reads_nil.mpr rfl, hd⟩
      | none =>
          have hnone : ¬∃ d, Matches word r c d := by
            rw [← matchAt_isSome_iff, hmatch]
            exact Bool.false_ne_true
          obtain ⟨before, after⟩ := c
          cases after with
          | nil =>
              refine iff_of_false (by simp) ?_
              rintro ⟨x, d, e, hx, hd⟩
              obtain rfl : x = [] := (List.append_eq_nil_iff.mp hx.after.symm).1
              rw [reads_nil.mp hx] at hd
              exact hnone ⟨e, hd⟩
          | cons a rest =>
              have hlt : rest.length < n := by
                rw [List.length_cons] at hc
                omega
              simp only [List.isEmpty_cons, Bool.false_eq_true, if_false]
              rw [Cursor.next, ih hlt]
              have hstep : Reads ⟨before, a :: rest⟩ [a] ⟨a :: before, rest⟩ := ⟨rfl, rfl⟩
              constructor
              · rintro ⟨x, d, e, hx, hd⟩
                exact ⟨[a] ++ x, d, e, reads_append.mpr ⟨_, hstep, hx⟩, hd⟩
              · rintro ⟨x, d, e, hx, hd⟩
                cases x with
                | nil =>
                    rw [reads_nil.mp hx] at hd
                    exact absurd ⟨e, hd⟩ hnone
                | cons b x =>
                    obtain ⟨c', hb, hx'⟩ := (reads_append (x := [b])).mp hx
                    obtain ⟨hba, hbb⟩ := hb
                    simp only [List.singleton_append, List.cons.injEq, List.reverse_singleton]
                      at hba hbb
                    obtain ⟨rfl, hrest⟩ := hba
                    have hc' : c' = ⟨a :: before, rest⟩ := by
                      obtain ⟨before', after'⟩ := c'
                      simp only at hbb hrest
                      rw [hbb, hrest]
                    rw [hc'] at hx'
                    exact ⟨x, d, e, hx', hd⟩

/-- A search finds something if and only if some position of the text leads somewhere. -/
theorem found_iff {t : Text} :
    found word r t = true ↔ ∃ c d, c.text = t ∧ Matches word r c d := by
  have hlength : (Cursor.start t).after.length < t.length + 1 := Nat.lt_succ_self _
  rw [found, search, searchFrom_isSome_iff _ hlength]
  constructor
  · rintro ⟨x, c, d, hx, hd⟩
    refine ⟨c, d, ?_, hd⟩
    rw [Cursor.text, hx.before]
    simpa [Cursor.start] using hx.after.symm
  · rintro ⟨c, d, htext, hd⟩
    exact ⟨_, c, d, text_eq_iff.mp htext, hd⟩

/-! ## The patterns one builds -/

lemma matches_seq_iff :
    Matches word (.seq r s) c e ↔ ∃ d, Matches word r c d ∧ Matches word s d e := by
  constructor
  · rintro ⟨⟩
    exact ⟨_, ‹_›, ‹_›⟩
  · rintro ⟨d, hr, hs⟩
    exact .seq hr hs

lemma matches_concat_cons {rest : List Regex} : Matches word (concat (r :: rest)) c e ↔
    ∃ d, Matches word r c d ∧ Matches word (concat rest) d e := by
  cases rest with
  | nil =>
      rw [concat, concat]
      constructor
      · intro h
        exact ⟨e, h, .empty e⟩
      · rintro ⟨d, h, ⟨⟩⟩
        exact h
  | cons r' rest => exact matches_seq_iff

lemma matches_empty_iff : Matches word (concat []) c d ↔ d = c := by
  rw [concat]
  constructor
  · rintro ⟨⟩
    rfl
  · rintro rfl
    exact .empty _

lemma matches_oneOf_iff {rs : List Regex} :
    Matches word (oneOf rs) c d ↔ ∃ r ∈ rs, Matches word r c d := by
  induction rs with
  | nil =>
      rw [oneOf]
      refine iff_of_false ?_ (by simp)
      intro h
      cases h with
      | set _ _ h => exact Bool.false_ne_true h
  | cons r rest ih =>
      cases rest with
      | nil =>
          rw [oneOf]
          simp
      | cons r' rest =>
          have hcons : oneOf (r :: r' :: rest) = .alt r (oneOf (r' :: rest)) := rfl
          rw [hcons, List.exists_mem_cons_iff, ← ih]
          constructor
          · rintro (⟨h⟩ | ⟨h⟩)
            · exact .inl ‹_›
            · exact .inr ‹_›
          · rintro (h | h)
            · exact .altLeft _ h
            · exact .altRight _ h

lemma matches_set_iff {p : CodePoint → Bool} :
    Matches word (.set p) c d ↔ ∃ a, p a = true ∧ Reads c [a] d := by
  constructor
  · intro hset
    cases hset with
    | set before rest h => exact ⟨_, h, ⟨rfl, rfl⟩⟩
  · obtain ⟨before, after⟩ := c
    obtain ⟨before', after'⟩ := d
    rintro ⟨a, h, ha, hb⟩
    simp only [List.singleton_append, List.reverse_singleton] at ha hb
    rw [ha, hb]
    exact .set before after' h

lemma matches_star_set_iff {p : CodePoint → Bool} :
    Matches word (.star (.set p)) c d ↔ ∃ x, (∀ a ∈ x, p a = true) ∧ Reads c x d := by
  constructor
  · intro h
    generalize hstar : Regex.star (.set p) = r' at h
    induction h with
    | done _ c => exact ⟨[], by simp, reads_nil.mpr rfl⟩
    | @more r' c d e hr hrs _ ih =>
        obtain rfl : Regex.set p = r' := Regex.star.inj hstar
        obtain ⟨a, ha, hread⟩ := matches_set_iff.mp hr
        obtain ⟨x, hx, hrest⟩ := ih rfl
        refine ⟨[a] ++ x, ?_, reads_append.mpr ⟨d, hread, hrest⟩⟩
        intro b hb
        rcases List.mem_cons.mp hb with rfl | hb
        · exact ha
        · exact hx b hb
    | _ => exact absurd hstar (by simp)
  · rintro ⟨x, hx, hread⟩
    induction x generalizing c with
    | nil =>
        rw [reads_nil.mp hread]
        exact .done _ _
    | cons a x ih =>
        obtain ⟨c', ha, hrest⟩ := (reads_append (x := [a])).mp hread
        exact .more (matches_set_iff.mpr ⟨a, hx a List.mem_cons_self, ha⟩)
          (ih (fun b hb => hx b (List.mem_cons_of_mem a hb)) hrest)

lemma matches_lineStart_iff :
    Matches word .lineStart c d ↔ c.atLineStart = true ∧ d = c := by
  constructor
  · rintro ⟨h⟩
    exact ⟨‹_›, rfl⟩
  · rintro ⟨h, rfl⟩
    exact .lineStart h

lemma matches_lineEnd_iff : Matches word .lineEnd c d ↔ c.atLineEnd = true ∧ d = c := by
  constructor
  · rintro ⟨h⟩
    exact ⟨‹_›, rfl⟩
  · rintro ⟨h, rfl⟩
    exact .lineEnd h

/-- The texts a literal matches under `IGNORECASE`. -/
def Spells (w x : Text) : Prop := List.Forall₂ (fun a b => sameLetter a b = true) w x

lemma matches_litI_iff {w : Text} :
    Matches word (litI w) c d ↔ ∃ x, Spells w x ∧ Reads c x d := by
  induction w generalizing c with
  | nil =>
      rw [litI, List.map_nil, matches_empty_iff]
      constructor
      · rintro rfl
        exact ⟨[], .nil, reads_nil.mpr rfl⟩
      · rintro ⟨x, ⟨⟩, hread⟩
        exact reads_nil.mp hread
  | cons a w ih =>
      rw [litI, List.map_cons, matches_concat_cons]
      constructor
      · rintro ⟨c', ha, hw⟩
        obtain ⟨b, hb, hread⟩ := matches_set_iff.mp ha
        obtain ⟨x, hx, hrest⟩ := ih.mp hw
        exact ⟨[b] ++ x, .cons hb hx, reads_append.mpr ⟨c', hread, hrest⟩⟩
      · rintro ⟨x, hx, hread⟩
        cases hx with
        | cons hb hx =>
            obtain ⟨c', hread, hrest⟩ := (reads_append (x := [_])).mp hread
            exact ⟨c', matches_set_iff.mpr ⟨_, hb, hread⟩, ih.mpr ⟨_, hx, hrest⟩⟩

end

end Regex

end AgentOrch
