import AgentOrch.Construction.Kanban.Approval
import AgentOrch.Construction.SpecApproval
import AgentOrch.Framework.Lines

/-!
# Who reads which approval

Intake and the board decide separately whether the text of a spec states its approval.  Both look
for a key, a separator and a value, but intake goes by a pattern whose white space may end a line
and whose separator may be `=`, and the board goes by the lines of Python, which end at more
characters, and takes off the marks of a list or a heading first.
-/

namespace AgentOrch

open Py Kanban

/-! ## Markers -/

/-- A statement of approval: a key, a separator and a value, with white space around them. -/
structure Marker where
  lead : Text
  key : Text
  gap : Text
  sep : CodePoint
  space : Text
  value : Text
  trail : Text
  lead_blank : Blank lead
  key_spelled : ∃ w ∈ approvalMarkerKeys, Regex.Spells w key
  gap_blank : Blank gap
  sep_mem : sep ∈ (":=" : Text)
  space_blank : Blank space
  value_spelled : ∃ w ∈ approvalMarkerValues, Regex.Spells w value
  trail_blank : Blank trail

namespace Marker

/-- What is stated, without the white space around it. -/
def core (m : Marker) : Text := m.key ++ m.gap ++ m.sep :: (m.space ++ m.value)

def text (m : Marker) : Text := m.lead ++ m.core ++ m.trail

/-- The marker has a colon, letters of ASCII, and no line break between its parts. -/
structure IsPlain (m : Marker) : Prop where
  sep : m.sep = 0x3A
  key : ∀ c ∈ m.key, c.val < 0x80
  value : ∀ c ∈ m.value, c.val < 0x80
  gap : OneLine m.gap
  space : OneLine m.space

end Marker

/-- The words of a marker. -/
def markerWords : List Text := approvalMarkerKeys ++ approvalMarkerValues

lemma isPlainLetter_of_word {w : Text} (hw : w ∈ markerWords) :
    ∀ c ∈ w, isPlainLetter c = true := by
  have hall : (markerWords.all fun w => w.all isPlainLetter) = true := by decide
  exact List.all_eq_true.mp (List.all_eq_true.mp hall w hw)

/-- A character that `IGNORECASE` takes for a letter of a word. -/
def IsWordLetter (c : CodePoint) : Prop := ∃ a, isPlainLetter a = true ∧ Regex.sameLetter a c = true

lemma wordLetter_of_spells {w x : Text} (hw : w ∈ markerWords) (h : Regex.Spells w x) :
    ∀ c ∈ x, IsWordLetter c := by
  have hletters := isPlainLetter_of_word hw
  clear hw
  induction h with
  | nil => simp
  | cons hab _ ih =>
      intro c hc
      rcases List.mem_cons.mp hc with rfl | hc
      · exact ⟨_, hletters _ List.mem_cons_self, hab⟩
      · exact ih (fun d hd => hletters d (List.mem_cons_of_mem _ hd)) c hc

lemma IsWordLetter.not_space {c : CodePoint} (h : IsWordLetter c) : isSpace c = false := by
  obtain ⟨a, ha, hac⟩ := h
  simp only [isPlainLetter, Bool.and_eq_true, decide_eq_true_eq, bne_iff_ne] at ha
  simp only [Regex.sameLetter, beq_iff_eq] at hac
  rw [← Bool.not_eq_true]
  intro hspace
  simp only [isSpace, Bool.or_eq_true, Bool.and_eq_true, decide_eq_true_eq, beq_iff_eq] at hspace
  split_ifs at hac <;> omega

/-- It is no list mark and no separator. -/
lemma IsWordLetter.not_mark {c : CodePoint} (h : IsWordLetter c) :
    c ∉ ("-*# " : Text) ∧ c ≠ 0x3A := by
  obtain ⟨a, ha, hac⟩ := h
  simp only [isPlainLetter, Bool.and_eq_true, decide_eq_true_eq, bne_iff_ne] at ha
  simp only [Regex.sameLetter, beq_iff_eq] at hac
  have hne : ∀ n : ℕ, n < 0x41 → c.val ≠ n := by
    rintro n hn rfl
    split_ifs at hac <;> omega
  constructor
  · intro hmem
    have hlist : ("-*# " : Text) = [0x2D, 0x2A, 0x23, 0x20] := rfl
    rw [hlist] at hmem
    simp only [List.mem_cons, List.not_mem_nil, or_false] at hmem
    rcases hmem with rfl | rfl | rfl | rfl
    · exact hne 0x2D (by decide) rfl
    · exact hne 0x2A (by decide) rfl
    · exact hne 0x23 (by decide) rfl
    · exact hne 0x20 (by decide) rfl
  · rintro rfl
    exact hne 0x3A (by decide) rfl

lemma key_word {w : Text} (hw : w ∈ approvalMarkerKeys) : w ∈ markerWords :=
  List.mem_append_left _ hw

lemma value_word {w : Text} (hw : w ∈ approvalMarkerValues) : w ∈ markerWords :=
  List.mem_append_right _ hw

lemma ne_nil_of_spells {w x : Text} (hw : w ∈ markerWords) (h : Regex.Spells w x) : x ≠ [] := by
  have hall : (markerWords.all fun w => !w.isEmpty) = true := by decide
  have hne := List.all_eq_true.mp hall w hw
  rintro rfl
  cases h
  exact absurd hne (by decide)

/-- The spelling of a word is bounded. -/
lemma bounded_of_spells {w x : Text} (hw : w ∈ markerWords) (h : Regex.Spells w x) : Bounded x where
  ne_nil := ne_nil_of_spells hw h
  first c hc := (wordLetter_of_spells hw h c (List.mem_of_mem_head? hc)).not_space
  last c hc := (wordLetter_of_spells hw h c (List.mem_of_mem_getLast? hc)).not_space

namespace Marker

variable (m : Marker)

lemma key_bounded : Bounded m.key := by
  obtain ⟨w, hw, hspells⟩ := m.key_spelled
  exact bounded_of_spells (key_word hw) hspells

lemma value_bounded : Bounded m.value := by
  obtain ⟨w, hw, hspells⟩ := m.value_spelled
  exact bounded_of_spells (value_word hw) hspells

lemma core_bounded : Bounded m.core where
  ne_nil := by simp [core]
  first c hc := by
    obtain ⟨d, rest, hkey⟩ := List.exists_cons_of_ne_nil m.key_bounded.ne_nil
    rw [core, hkey, List.cons_append, List.cons_append, List.head?_cons] at hc
    exact m.key_bounded.first c (by rw [hkey]; exact hc)
  last c hc := by
    rw [core, List.getLast?_append_of_ne_nil _ (List.cons_ne_nil _ _), ← List.cons_append,
      List.getLast?_append_of_ne_nil _ m.value_bounded.ne_nil] at hc
    exact m.value_bounded.last c hc

end Marker

/-! ## What intake finds -/

/-- A newline, or the start of the text, is in front. -/
def AtLineStart (front : Text) : Prop := ∀ c ∈ front.getLast?, c = 0x0A

/-- A newline, or the end of the text, is behind. -/
def AtLineEnd (back : Text) : Prop := ∀ c ∈ back.head?, c = 0x0A

lemma matches_words_iff {word : CodePoint → Bool} {words : List Text} {c d : Regex.Cursor} :
    (∃ r ∈ words.map Regex.litI, Regex.Matches word r c d) ↔
      ∃ x, (∃ w ∈ words, Regex.Spells w x) ∧ Regex.Reads c x d := by
  constructor
  · rintro ⟨r, hr, hmatch⟩
    obtain ⟨w, hw, rfl⟩ := List.mem_map.mp hr
    obtain ⟨x, hx, hread⟩ := Regex.matches_litI_iff.mp hmatch
    exact ⟨x, ⟨w, hw, hx⟩, hread⟩
  · rintro ⟨x, ⟨w, hw, hx⟩, hread⟩
    exact ⟨_, List.mem_map_of_mem hw, Regex.matches_litI_iff.mpr ⟨x, hx, hread⟩⟩

lemma specApprovalRe_eq : specApprovalRe = Regex.concat [.lineStart, .star (.set isSpace),
    Regex.oneOf (approvalMarkerKeys.map Regex.litI), .star (.set isSpace), Regex.charIn ":=",
    .star (.set isSpace), Regex.oneOf (approvalMarkerValues.map Regex.litI),
    .star (.set isSpace), .lineEnd] := rfl

/-- The pattern finds a marker that begins and ends where a line does, and no other text. -/
lemma found_specApprovalRe_iff {word : CodePoint → Bool} {t : Text} :
    specApprovalRe.found word t = true ↔
      ∃ (m : Marker) (a z : Text), t = a ++ m.text ++ z ∧ AtLineStart a ∧ AtLineEnd z := by
  rw [Regex.found_iff, specApprovalRe_eq]
  simp only [Regex.matches_concat_cons, Regex.matches_empty_iff, Regex.charIn,
    Regex.matches_star_set_iff, Regex.matches_oneOf_iff, matches_words_iff, Regex.matches_set_iff,
    Regex.matches_lineStart_iff, Regex.matches_lineEnd_iff, decide_eq_true_eq]
  constructor
  · rintro ⟨c, e, rfl, c₁, ⟨hstart, rfl⟩, c₂, ⟨lead, hlead, h₁⟩, c₃, ⟨key, hkey, h₂⟩,
      c₄, ⟨gap, hgap, h₃⟩, c₅, ⟨sep, hsep, h₄⟩, c₆, ⟨space, hspace, h₅⟩, c₇, ⟨value, hvalue, h₆⟩,
      c₈, ⟨trail, htrail, h₇⟩, c₉, ⟨hend, rfl⟩, rfl⟩
    refine ⟨⟨lead, key, gap, sep, space, value, trail, hlead, hkey, hgap, hsep, hspace, hvalue,
      htrail⟩, c₁.before.reverse, e.after, ?_, ?_, ?_⟩
    · simp only [Regex.Cursor.text, Marker.text, Marker.core, h₁.after, h₂.after, h₃.after,
        h₄.after, h₅.after, h₆.after, h₇.after, List.append_assoc, List.cons_append,
        List.nil_append]
    · intro d hd
      rw [List.getLast?_reverse] at hd
      rw [Regex.Cursor.atLineStart, Option.mem_def.mp hd] at hstart
      simpa using hstart
    · intro d hd
      rw [Regex.Cursor.atLineEnd, Option.mem_def.mp hd] at hend
      simpa using hend
  · rintro ⟨m, a, z, rfl, hstart, hend⟩
    have hread : Regex.Reads ⟨a.reverse, m.text ++ z⟩ (m.lead ++ (m.key ++ (m.gap ++ ([m.sep] ++
        (m.space ++ (m.value ++ m.trail)))))) ⟨m.text.reverse ++ a.reverse, z⟩ := by
      constructor <;> simp [Marker.text, Marker.core]
    simp only [Regex.reads_append] at hread
    obtain ⟨c₂, h₁, c₃, h₂, c₄, h₃, c₅, h₄, c₆, h₅, c₇, h₆, h₇⟩ := hread
    refine ⟨⟨a.reverse, m.text ++ z⟩, _, by simp [Regex.Cursor.text], _, ⟨?_, rfl⟩,
      c₂, ⟨_, m.lead_blank, h₁⟩, c₃, ⟨_, m.key_spelled, h₂⟩, c₄, ⟨_, m.gap_blank, h₃⟩,
      c₅, ⟨_, m.sep_mem, h₄⟩, c₆, ⟨_, m.space_blank, h₅⟩, c₇, ⟨_, m.value_spelled, h₆⟩,
      _, ⟨_, m.trail_blank, h₇⟩, _, ⟨?_, rfl⟩, rfl⟩
    · simp only [Regex.Cursor.atLineStart, List.head?_reverse]
      cases hlast : a.getLast? with
      | none => rfl
      | some c => simp [hstart c hlast]
    · simp only [Regex.Cursor.atLineEnd]
      cases hhead : z.head? with
      | none => rfl
      | some c => simp [hend c hhead]

/-! ## What the board finds -/

/-- `"-*# "` -/
def IsListMarks (marks : Text) : Prop := ∀ c ∈ marks, c ∈ ("-*# " : Text)

/-- A word in lower case is spelled in ASCII. -/
lemma lower_mem_iff (lowering : Lowering) {words : List Text} (hwords : words ⊆ markerWords)
    {x : Text} : lowering.lower x ∈ words ↔
      (∃ w ∈ words, Regex.Spells w x) ∧ ∀ c ∈ x, c.val < 0x80 := by
  have hword : ∀ w ∈ words, (lowering.lower x = w ↔
      Regex.Spells w x ∧ ∀ c ∈ x, c.val < 0x80) := by
    intro w hw
    have hletters := isPlainLetter_of_word (hwords hw)
    rw [lowering.lower_eq_iff x w hletters, map_asciiLower_iff hletters]
  constructor
  · intro hmem
    obtain ⟨hspells, hascii⟩ := (hword _ hmem).mp rfl
    exact ⟨⟨_, hmem, hspells⟩, hascii⟩
  · rintro ⟨⟨w, hw, hspells⟩, hascii⟩
    rw [(hword w hw).mpr ⟨hspells, hascii⟩]
    exact hw

/-- What is left of a line once the list marks in front of a core are off. -/
lemma strip_marks {w marks lead core trail : Text} (hcore : Bounded core) (hw : Blank w)
    (hmarks : IsListMarks marks) (hlead : Blank lead) (htrail : Blank trail)
    (hfirst : ∀ c ∈ core.head?, c ∉ ("-*# " : Text)) :
    strip ((strip (w ++ marks ++ lead ++ core ++ trail)).dropWhile
      fun c => decide (c ∈ ("-*# " : Text))) = core := by
  rw [strip_around hcore htrail, List.dropWhile_append]
  have hcoredrop : core.dropWhile (fun c => decide (c ∈ ("-*# " : Text))) = core := by
    obtain ⟨c, rest, hc⟩ := List.exists_cons_of_ne_nil hcore.ne_nil
    have hmark := hfirst c (by rw [hc]; rfl)
    rw [hc, List.dropWhile_cons, if_neg (by simpa using hmark)]
  -- what the marks leave of the text in front
  have hfront : Blank (((w ++ marks ++ lead).dropWhile isSpace).dropWhile
      fun c => decide (c ∈ ("-*# " : Text))) := by
    have hmarks' : (marks.dropWhile isSpace).dropWhile
        (fun c => decide (c ∈ ("-*# " : Text))) = [] := by
      rw [List.dropWhile_eq_nil_iff]
      intro c hc
      exact decide_eq_true (hmarks c (List.dropWhile_subset _ hc))
    rw [List.append_assoc, List.dropWhile_append, List.dropWhile_eq_nil_iff.mpr hw,
      List.dropWhile_append]
    simp only [List.isEmpty_nil, if_true]
    split
    · rw [List.dropWhile_eq_nil_iff.mpr hlead]
      exact blank_nil
    · rw [List.dropWhile_append, hmarks']
      simp only [List.isEmpty_nil, if_true]
      exact fun c hc => hlead c (List.dropWhile_subset _ hc)
  split
  · rw [hcoredrop]
    have h := strip_blank_around hcore blank_nil blank_nil
    rwa [List.nil_append, List.append_nil] at h
  · have h := strip_blank_around hcore hfront blank_nil
    rwa [List.append_nil] at h

/-- The text in front of a colon and the one behind it state an approval, once they are stripped. -/
lemma Marker.exists_of_split {lowering : Lowering} {key value : Text}
    (hkey : lowering.lower (strip key) ∈ approvalMarkerKeys)
    (hvalue : lowering.lower (strip value) ∈ approvalMarkerValues)
    (hline : OneLine (key ++ 0x3A :: value)) {w w' : Text} (hw : Blank w) (hw' : Blank w') :
    ∃ m : Marker, m.IsPlain ∧ m.text = w ++ (key ++ 0x3A :: value) ++ w' := by
  obtain ⟨hkey, hkeyascii⟩ := (lower_mem_iff lowering (fun _ => key_word)).mp hkey
  obtain ⟨hvalue, hvalueascii⟩ := (lower_mem_iff lowering (fun _ => value_word)).mp hvalue
  obtain ⟨w₁, w₂, hkeysplit, hw₁, hw₂⟩ := exists_strip key
  obtain ⟨w₃, w₄, hvaluesplit, hw₃, hw₄⟩ := exists_strip value
  refine ⟨⟨w ++ w₁, strip key, w₂, 0x3A, w₃, strip value, w₄ ++ w', blank_append.mpr ⟨hw, hw₁⟩,
    hkey, hw₂, by decide, hw₃, hvalue, blank_append.mpr ⟨hw₄, hw'⟩⟩,
    ⟨rfl, hkeyascii, hvalueascii, ?_, ?_⟩, ?_⟩
  · intro c hc
    refine hline c (List.mem_append_left _ ?_)
    rw [hkeysplit]
    exact List.mem_append_right _ hc
  · intro c hc
    refine hline c (List.mem_append_right _ (List.mem_cons_of_mem _ ?_))
    rw [hvaluesplit]
    exact List.mem_append_left _ (List.mem_append_left _ hc)
  · conv_rhs => rw [hkeysplit, hvaluesplit]
    simp [Marker.text, Marker.core]

/-- The board finds a plain marker on a line, behind list marks and no other text. -/
lemma specIsExplicitlyApproved_iff (lowering : Lowering) {t : Text} :
    specIsExplicitlyApproved lowering.lower t = true ↔
      ∃ (m : Marker) (w marks : Text), m.IsPlain ∧ Blank w ∧ IsListMarks marks ∧
        w ++ marks ++ m.text ∈ splitlines t := by
  have hcolon : (":" : Text) = [0x3A] := rfl
  rw [specIsExplicitlyApproved, List.any_eq_true]
  constructor
  · rintro ⟨line, hline, hmatch⟩
    dsimp only at hmatch
    split at hmatch
    · exact absurd hmatch Bool.false_ne_true
    · next key value hsplit =>
      simp only [Bool.and_eq_true, decide_eq_true_eq] at hmatch
      have hcore := splitFirst_eq_append hsplit
      rw [hcolon, List.append_assoc, List.singleton_append] at hcore
      obtain ⟨w₁, w₂, hline₁, hw₁, hw₂⟩ := exists_strip line
      obtain ⟨w₃, w₄, hline₂, hw₃, hw₄⟩ :=
        exists_strip ((strip line).dropWhile fun c => decide (c ∈ ("-*# " : Text)))
      have hline₃ : line = w₁ ++ (strip line).takeWhile (fun c => decide (c ∈ ("-*# " : Text))) ++
          (w₃ ++ (key ++ 0x3A :: value) ++ (w₄ ++ w₂)) := by
        conv_lhs => rw [hline₁, ← List.takeWhile_append_dropWhile
          (p := fun c => decide (c ∈ ("-*# " : Text))) (l := strip line), hline₂, hcore]
        simp only [List.append_assoc]
      have hne : line ≠ [] := by
        rw [hline₃]
        simp
      obtain ⟨a, z, -, hone, -, -⟩ := (mem_splitlines_iff hne).mp hline
      have hone' : OneLine (key ++ 0x3A :: value) := by
        intro c hc
        apply hone c
        rw [hline₃]
        exact List.mem_append_right _ (List.mem_append_left _ (List.mem_append_right _ hc))
      obtain ⟨m, hplain, htext⟩ := Marker.exists_of_split hmatch.1 hmatch.2
        hone' hw₃ (blank_append.mpr ⟨hw₄, hw₂⟩)
      refine ⟨m, w₁, (strip line).takeWhile fun c => decide (c ∈ ("-*# " : Text)), hplain, hw₁,
        ?_, ?_⟩
      · intro c hc
        have hmark := List.mem_takeWhile_imp hc
        exact of_decide_eq_true hmark
      · rw [htext, ← hline₃]
        exact hline
  · rintro ⟨m, w, marks, hplain, hw, hmarks, hline⟩
    refine ⟨_, hline, ?_⟩
    obtain ⟨k, hk, hkspells⟩ := m.key_spelled
    have hletters := wordLetter_of_spells (key_word hk) hkspells
    have hfirst : ∀ c ∈ m.core.head?, c ∉ ("-*# " : Text) := by
      intro c hc
      obtain ⟨d, rest, hkey⟩ := List.exists_cons_of_ne_nil m.key_bounded.ne_nil
      rw [Marker.core, hkey, List.cons_append, List.cons_append, List.head?_cons,
        Option.mem_some_iff] at hc
      exact (hletters c (by rw [hkey, hc]; exact List.mem_cons_self)).not_mark.1
    have hsep : (0x3A : CodePoint) ∉ m.key ++ m.gap := by
      intro hmem
      rcases List.mem_append.mp hmem with hmem | hmem
      · exact (hletters _ hmem).not_mark.2 rfl
      · exact absurd (m.gap_blank _ hmem) (by decide)
    have hsplit : splitFirst (":" : Text) m.core = some (m.key ++ m.gap, m.space ++ m.value) := by
      rw [hcolon, Marker.core, hplain.sep]
      exact splitFirst_of_notMem hsep
    have hkey := strip_blank_around m.key_bounded blank_nil m.gap_blank
    have hvalue := strip_blank_around m.value_bounded m.space_blank blank_nil
    rw [List.nil_append] at hkey
    rw [List.append_nil] at hvalue
    dsimp only
    rw [Marker.text, ← List.append_assoc, ← List.append_assoc,
      strip_marks m.core_bounded hw hmarks m.lead_blank m.trail_blank hfirst, hsplit]
    simp only [hkey, hvalue, Bool.and_eq_true, decide_eq_true_eq]
    exact ⟨(lower_mem_iff lowering (fun _ => key_word)).mpr ⟨m.key_spelled, hplain.key⟩,
      (lower_mem_iff lowering (fun _ => value_word)).mpr ⟨m.value_spelled, hplain.value⟩⟩

/-! ## Kinds of markers -/

/-- What stands on the line of a newline in front of a piece of text. -/
def lastLine (front : Text) : Text := (front.reverse.takeWhile fun c => c ≠ 0x0A).reverse

/-- What stands on the line of a newline behind a piece of text. -/
def firstLine (back : Text) : Text := back.takeWhile fun c => c ≠ 0x0A

/-- A plain marker that begins and ends where a newline does: both read it. -/
def HasShared (t : Text) : Prop :=
  ∃ (m : Marker) (a z : Text), m.IsPlain ∧ t = a ++ m.text ++ z ∧ AtLineStart a ∧ AtLineEnd z

/-- A marker with `=`, with a letter outside ASCII, or with a line break between its parts: only
intake reads it. -/
def HasForeign (t : Text) : Prop :=
  ∃ (m : Marker) (a z : Text), ¬m.IsPlain ∧ t = a ++ m.text ++ z ∧ AtLineStart a ∧ AtLineEnd z

/-- A plain marker on a line of its own, behind list marks or with other text up to the next
newline: only the board reads it. -/
def HasMarked (t : Text) : Prop :=
  ∃ (m : Marker) (w marks a z : Text), m.IsPlain ∧ Blank w ∧ IsListMarks marks ∧
    (t = a ++ (w ++ marks ++ m.text) ++ z ∧ OneLine (w ++ marks ++ m.text) ∧ EndsLine a ∧
      BeginsAfterLine z) ∧
    ((∃ c ∈ marks, c ≠ 0x20) ∨ ¬Blank (lastLine a) ∨ ¬Blank (firstLine z))

/-- A marker that is a line of the text by itself. -/
def HasBare (t : Text) : Prop := ∃ m : Marker, m.text ∈ splitlines t

/-- A text up to the last character of a kind, and what follows. -/
lemma exists_last (p : CodePoint → Bool) (t : Text) : ∃ t₁ t₂, t = t₁ ++ t₂ ∧
    t₂ = (t.reverse.takeWhile fun c => !p c).reverse ∧ (∀ c ∈ t₂, p c = false) ∧
    ∀ c ∈ t₁.getLast?, p c = true := by
  refine ⟨(t.reverse.dropWhile fun c => !p c).reverse, _, ?_, rfl, ?_, ?_⟩
  · rw [← List.reverse_append, List.takeWhile_append_dropWhile, List.reverse_reverse]
  · intro c hc
    simpa using List.mem_takeWhile_imp (List.mem_reverse.mp hc)
  · intro c hc
    rw [List.getLast?_reverse] at hc
    have hnot := List.head?_dropWhile_not (fun c => !p c) t.reverse
    rw [Option.mem_def.mp hc] at hnot
    simpa using hnot

/-- A text up to the first character of a kind, and what follows. -/
lemma exists_first (p : CodePoint → Bool) (t : Text) : ∃ t₁ t₂, t = t₁ ++ t₂ ∧
    t₁ = (t.takeWhile fun c => !p c) ∧ (∀ c ∈ t₁, p c = false) ∧ ∀ c ∈ t₂.head?, p c = true := by
  refine ⟨_, t.dropWhile fun c => !p c, List.takeWhile_append_dropWhile.symm, rfl, ?_, ?_⟩
  · intro c hc
    simpa using List.mem_takeWhile_imp hc
  · intro c hc
    have hnot := List.head?_dropWhile_not (fun c => !p c) t
    rw [Option.mem_def.mp hc] at hnot
    simpa using hnot

/-- A line break is white space. -/
lemma isSpace_of_isLineBreak {c : CodePoint} (h : isLineBreak c = true) : isSpace c = true := by
  simp only [isLineBreak, isSpace, Bool.or_eq_true, Bool.and_eq_true, decide_eq_true_eq,
    beq_iff_eq] at h ⊢
  omega

/-- The parts of a plain marker are on one line. -/
lemma Marker.IsPlain.oneLine_core {m : Marker} (h : m.IsPlain) : OneLine m.core := by
  have hletter : ∀ {c : CodePoint}, IsWordLetter c → isLineBreak c = false := by
    intro c hc
    rw [← Bool.not_eq_true]
    intro hbreak
    exact absurd (hc.not_space.symm.trans (isSpace_of_isLineBreak hbreak)) Bool.false_ne_true
  obtain ⟨k, hk, hkspells⟩ := m.key_spelled
  obtain ⟨v, hv, hvspells⟩ := m.value_spelled
  intro c hc
  simp only [core, List.mem_append, List.mem_cons] at hc
  rcases hc with (hc | hc) | rfl | hc | hc
  · exact hletter (wordLetter_of_spells (key_word hk) hkspells c hc)
  · exact h.gap c hc
  · rw [h.sep]
    decide
  · exact h.space c hc
  · exact hletter (wordLetter_of_spells (value_word hv) hvspells c hc)

/-- A shared marker has a line of the text to itself. -/
lemma exists_bare_of_shared {t : Text} (h : HasShared t) :
    ∃ m : Marker, m.IsPlain ∧ m.text ∈ splitlines t := by
  obtain ⟨m, a, z, hplain, rfl, hstart, hend⟩ := h
  obtain ⟨l₁, l₂, hlead, -, hl₂, hl₁⟩ := exists_last isLineBreak m.lead
  obtain ⟨r₁, r₂, htrail, -, hr₁, hr₂⟩ := exists_first isLineBreak m.trail
  have hblank : Blank l₂ :=
    fun c hc => m.lead_blank c (by rw [hlead]; exact List.mem_append_right _ hc)
  have hblank' : Blank r₁ :=
    fun c hc => m.trail_blank c (by rw [htrail]; exact List.mem_append_left _ hc)
  let m' : Marker :=
    { m with lead := l₂, lead_blank := hblank, trail := r₁, trail_blank := hblank' }
  have hplain' : m'.IsPlain := ⟨hplain.sep, hplain.key, hplain.value, hplain.gap, hplain.space⟩
  have hne : m'.text ≠ [] := by
    rw [Marker.text]
    simp [m'.core_bounded.ne_nil]
  refine ⟨m', hplain', (mem_splitlines_iff hne).mpr ⟨a ++ l₁, r₂ ++ z, ?_, ?_, ?_, ?_⟩⟩
  · have hcore : m'.core = m.core := rfl
    simp only [Marker.text, hcore, hlead, htrail, List.append_assoc]
    rfl
  · exact (OneLine.append hl₂ hplain'.oneLine_core).append hr₁
  · intro c hc
    cases hnil : l₁ with
    | nil =>
        rw [hnil, List.append_nil] at hc
        rw [hstart c hc]
        decide
    | cons d rest =>
        rw [List.getLast?_append_of_ne_nil _ (by rw [hnil]; simp)] at hc
        exact hl₁ c hc
  · intro c hc
    cases hnil : r₂ with
    | nil =>
        rw [hnil, List.nil_append] at hc
        rw [hend c hc]
        decide
    | cons d rest =>
        rw [hnil, List.cons_append, List.head?_cons] at hc
        exact hr₂ c (by rw [hnil]; exact hc)

lemma hasBare_of_shared {t : Text} (h : HasShared t) : HasBare t := by
  obtain ⟨m, -, hline⟩ := exists_bare_of_shared h
  exact ⟨m, hline⟩

/-- Intake reads the shared markers and the foreign ones. -/
lemma found_iff_kinds {word : CodePoint → Bool} {t : Text} :
    specApprovalRe.found word t = true ↔ HasShared t ∨ HasForeign t := by
  rw [found_specApprovalRe_iff]
  constructor
  · rintro ⟨m, a, z, h⟩
    by_cases hplain : m.IsPlain
    · exact .inl ⟨m, a, z, hplain, h⟩
    · exact .inr ⟨m, a, z, hplain, h⟩
  · rintro (⟨m, a, z, -, h⟩ | ⟨m, a, z, -, h⟩)
    · exact ⟨m, a, z, h⟩
    · exact ⟨m, a, z, h⟩

/-- The board reads the shared markers and the marked ones. -/
lemma approved_iff_kinds (lowering : Lowering) {t : Text} :
    specIsExplicitlyApproved lowering.lower t = true ↔ HasShared t ∨ HasMarked t := by
  rw [specIsExplicitlyApproved_iff]
  have hne : ∀ (m : Marker) (w marks : Text), w ++ marks ++ m.text ≠ [] := by
    intro m w marks
    simp [Marker.text, m.core_bounded.ne_nil]
  constructor
  · rintro ⟨m, w, marks, hplain, hw, hmarks, hline⟩
    obtain ⟨a, z, rfl, hone, ha, hz⟩ := (mem_splitlines_iff (hne m w marks)).mp hline
    by_cases halone : (∀ c ∈ marks, c = 0x20) ∧ Blank (lastLine a) ∧ Blank (firstLine z)
    · left
      obtain ⟨hspaces, hlast, hfirst⟩ := halone
      obtain ⟨a₁, a₂, ha₁₂, ha₂, -, hstart⟩ := exists_last (fun c => decide (c = 0x0A)) a
      obtain ⟨z₁, z₂, hz₁₂, hz₁, -, hend⟩ := exists_first (fun c => decide (c = 0x0A)) z
      have ha₂' : a₂ = lastLine a := by
        rw [ha₂, lastLine]
        simp
      have hz₁' : z₁ = firstLine z := by
        rw [hz₁, firstLine]
        simp
      have hmarksblank : Blank marks := by
        intro c hc
        rw [hspaces c hc]
        decide
      have hlead : Blank (a₂ ++ w ++ marks ++ m.lead) := by
        simp only [blank_append]
        exact ⟨⟨⟨ha₂' ▸ hlast, hw⟩, hmarksblank⟩, m.lead_blank⟩
      have htrail : Blank (m.trail ++ z₁) := blank_append.mpr ⟨m.trail_blank, hz₁' ▸ hfirst⟩
      refine ⟨{ m with lead := _, lead_blank := hlead, trail := _, trail_blank := htrail }, a₁, z₂,
        ⟨hplain.sep, hplain.key, hplain.value, hplain.gap, hplain.space⟩, ?_, ?_, ?_⟩
      · conv_lhs => rw [ha₁₂, hz₁₂]
        simp [Marker.text, Marker.core]
      · exact fun c hc => of_decide_eq_true (hstart c hc)
      · exact fun c hc => of_decide_eq_true (hend c hc)
    · right
      refine ⟨m, w, marks, a, z, hplain, hw, hmarks, ⟨rfl, hone, ha, hz⟩, ?_⟩
      rw [not_and_or, not_and_or] at halone
      refine halone.imp_left fun h => ?_
      simpa only [not_forall, exists_prop] using h
  · rintro (h | ⟨m, w, marks, a, z, hplain, hw, hmarks, hline, -⟩)
    · obtain ⟨m, hplain, hline⟩ := exists_bare_of_shared h
      exact ⟨m, [], [], hplain, blank_nil, by simp [IsListMarks], hline⟩
    · exact ⟨m, w, marks, hplain, hw, hmarks,
        (mem_splitlines_iff (hne m w marks)).mpr ⟨a, z, hline⟩⟩

/-- Intake and the board agree about a text, and approve it only for a line that is a marker, if and
only if the text has a shared marker, or no foreign and no marked one, or both with a line that is a
marker. -/
theorem approvals_agree_iff (word : CodePoint → Bool) (lowering : Lowering) (t : Text) :
    ((specApprovalRe.found word t = true ↔ specIsExplicitlyApproved lowering.lower t = true) ∧
        (specApprovalRe.found word t = true → HasBare t) ∧
        (specIsExplicitlyApproved lowering.lower t = true → HasBare t)) ↔
      HasShared t ∨ (¬HasForeign t ∧ ¬HasMarked t) ∨ (HasForeign t ∧ HasMarked t ∧ HasBare t) := by
  rw [found_iff_kinds, approved_iff_kinds]
  have hbare := @hasBare_of_shared t
  tauto

/-- Intake goes by an equals sign, the board by a field behind the mark of a list. -/
theorem not_approvals_agree :
    (specApprovalRe.found Unicode.ascii.isWord "Status = ready" = true ∧
      specIsExplicitlyApproved Lowering.ascii.lower "Status = ready" = false) ∧
    (specApprovalRe.found Unicode.ascii.isWord "- Status: ready" = false ∧
      specIsExplicitlyApproved Lowering.ascii.lower "- Status: ready" = true) :=
  ⟨⟨by decide, by decide⟩, ⟨by decide, by decide⟩⟩

end AgentOrch
