import AgentOrch.Construction.EnvelopeBlock

/-!
# The envelope round trip

What `render_envelope_block` writes, `extract_envelope` reads: the block is found by its two marker
lines, and its body is laid out JSON.  The body holds the member strings as they are, so a member
that spells a marker is a second marker; and the validator looks provenances of any kind up in a
`frozenset`.  Both limits are exact.
-/

namespace AgentOrch

open Py Json

/-! ## Marker lines -/

section
variable {q : Text → Bool} {lines : List Text}

lemma linesFrom_append (k : ℕ) (a b : List Text) :
    (((a ++ b).zipIdx k).filter fun l => q l.1).map Prod.snd =
      ((a.zipIdx k).filter fun l => q l.1).map Prod.snd ++
        ((b.zipIdx (k + a.length)).filter fun l => q l.1).map Prod.snd := by
  rw [List.zipIdx_append, List.filter_append, List.map_append, Nat.add_comm]

lemma linesFrom_eq_nil (k : ℕ) :
    ((lines.zipIdx k).filter fun l => q l.1).map Prod.snd = [] ↔ ∀ l ∈ lines, q l = false := by
  induction lines generalizing k with
  | nil => simp
  | cons l lines ih =>
      rw [List.zipIdx_cons, List.filter_cons, List.forall_mem_cons]
      cases hl : q l with
      | true => simp
      | false =>
          rw [if_neg (by simp), ih]
          simp

/-- There is one such line exactly when the lines before it and after it are others. -/
lemma linesFrom_eq_singleton {k b : ℕ} :
    ((lines.zipIdx k).filter fun l => q l.1).map Prod.snd = [b] ↔
      ∃ before line after, lines = before ++ line :: after ∧ b = k + before.length ∧
        q line = true ∧ (∀ l ∈ before, q l = false) ∧ ∀ l ∈ after, q l = false := by
  constructor
  · intro h
    induction lines generalizing k with
    | nil => simp at h
    | cons l lines ih =>
        rw [List.zipIdx_cons, List.filter_cons] at h
        cases hl : q l with
        | true =>
            rw [if_pos hl, List.map_cons] at h
            obtain ⟨rfl, hrest⟩ := List.cons.inj h
            exact ⟨[], l, lines, rfl, rfl, hl, by simp, (linesFrom_eq_nil _).mp hrest⟩
        | false =>
            rw [if_neg (by simp [hl])] at h
            obtain ⟨before, line, after, rfl, rfl, hline, hbefore, hafter⟩ := ih h
            refine ⟨l :: before, line, after, rfl, ?_, hline, ?_, hafter⟩
            · rw [List.length_cons]
              omega
            · exact List.forall_mem_cons.mpr ⟨hl, hbefore⟩
  · rintro ⟨before, line, after, rfl, rfl, hline, hbefore, hafter⟩
    rw [linesFrom_append, (linesFrom_eq_nil k).mpr hbefore, List.nil_append, List.zipIdx_cons,
      List.filter_cons, if_pos hline, List.map_cons, (linesFrom_eq_nil _).mpr hafter]

lemma linesWhere_eq_singleton {b : ℕ} :
    linesWhere q lines = [b] ↔ ∃ before line after, lines = before ++ line :: after ∧
      b = before.length ∧ q line = true ∧ (∀ l ∈ before, q l = false) ∧
        ∀ l ∈ after, q l = false := by
  unfold linesWhere
  rw [linesFrom_eq_singleton]
  simp only [Nat.zero_add]

end

/-! ## The frame -/

/-- The line is a marker. -/
def IsMarkerLine (line : Text) : Prop := strip line = envelopeBegin ∨ strip line = envelopeEnd

/-- Exactly one begin and one end marker, each alone on its line, in that order, with nothing but
blank lines after the end marker. -/
structure Framed (text : Text) (before : List Text) (first : Text) (inner : List Text) (last : Text)
    (after : List Text) : Prop where
  lines : splitOnChar 0x0A text = before ++ first :: inner ++ last :: after
  begins : count envelopeBegin text = 1
  ends : count envelopeEnd text = 1
  first : strip first = envelopeBegin
  last : strip last = envelopeEnd
  others : ∀ line ∈ before ++ inner, ¬ IsMarkerLine line
  blank : ∀ line ∈ after, isBlank line = true

lemma envelopeBegin_ne_end : envelopeBegin ≠ envelopeEnd := by decide

section
variable {rt : Runtime} {text : Text} {before inner after : List Text} {first last : Text}

lemma not_isMarkerLine_of_blank {line : Text} (h : isBlank line = true) : ¬ IsMarkerLine line := by
  have hnil : strip line = [] := List.isEmpty_iff.mp h
  rintro (h | h)
  · rw [hnil] at h
    exact absurd h (by decide)
  · rw [hnil] at h
    exact absurd h (by decide)

/-- The block of a frame is found. -/
lemma Framed.envelopeBlockText (h : Framed text before first inner last after) :
    AgentOrch.envelopeBlockText text = .ok (some (join "\n" (first :: inner ++ [last]))) := by
  have hother : ∀ line, ¬ IsMarkerLine line →
      decide (strip line = envelopeBegin) = false ∧ decide (strip line = envelopeEnd) = false := by
    intro line hline
    exact ⟨decide_eq_false fun h => hline (.inl h), decide_eq_false fun h => hline (.inr h)⟩
  have hbefore : ∀ line ∈ before, ¬ IsMarkerLine line := fun line hline =>
    h.others line (List.mem_append_left _ hline)
  have hinner : ∀ line ∈ inner, ¬ IsMarkerLine line := fun line hline =>
    h.others line (List.mem_append_right _ hline)
  have hafter : ∀ line ∈ after, ¬ IsMarkerLine line := fun line hline =>
    not_isMarkerLine_of_blank (h.blank line hline)
  have hbegins : linesWhere (fun line => strip line = envelopeBegin) (splitOnChar 0x0A text) =
      [before.length] := by
    refine linesWhere_eq_singleton.mpr ⟨before, first, inner ++ last :: after, ?_, rfl,
      decide_eq_true h.first, fun l hl => (hother l (hbefore l hl)).1, ?_⟩
    · rw [h.lines]
      simp
    · intro l hl
      rcases List.mem_append.mp hl with hl | hl
      · exact (hother l (hinner l hl)).1
      · rcases List.mem_cons.mp hl with rfl | hl
        · refine decide_eq_false fun hfalse => envelopeBegin_ne_end ?_
          rw [← hfalse, h.last]
        · exact (hother l (hafter l hl)).1
  have hends : linesWhere (fun line => strip line = envelopeEnd) (splitOnChar 0x0A text) =
      [(before ++ first :: inner).length] := by
    refine linesWhere_eq_singleton.mpr ⟨before ++ first :: inner, last, after, h.lines, rfl,
      decide_eq_true h.last, ?_, fun l hl => (hother l (hafter l hl)).2⟩
    intro l hl
    rcases List.mem_append.mp hl with hl | hl
    · exact (hother l (hbefore l hl)).2
    · rcases List.mem_cons.mp hl with rfl | hl
      · refine decide_eq_false fun hfalse => envelopeBegin_ne_end ?_
        rw [← hfalse, h.first]
      · exact (hother l (hinner l hl)).2
  have hblank : (after.any fun line => !isBlank line) = false := by
    rw [List.any_eq_false]
    intro line hline
    simp [h.blank line hline]
  have hlt : ¬ (before ++ first :: inner).length ≤ before.length := by
    simp
  have hsplit : splitOnChar 0x0A text = (before ++ (first :: inner ++ [last])) ++ after := by
    rw [h.lines]
    simp
  have hlength : (before ++ (first :: inner ++ [last])).length =
      (before ++ first :: inner).length + 1 := by
    simp
    omega
  have hdrop : (splitOnChar 0x0A text).drop ((before ++ first :: inner).length + 1) = after := by
    rw [hsplit, List.drop_left' hlength]
  have htake : ((splitOnChar 0x0A text).take ((before ++ first :: inner).length + 1)).drop
      before.length = first :: inner ++ [last] := by
    rw [hsplit, List.take_left' hlength, List.drop_left]
  unfold AgentOrch.envelopeBlockText
  dsimp only
  rw [hbegins, hends, h.begins, h.ends]
  dsimp only
  rw [if_neg (by simp), if_neg (by simp), if_neg hlt, hdrop, if_neg (by simp [hblank]), htake]

/-- And only the block of a frame. -/
lemma framed_of {block : Text} (h : envelopeBlockText text = .ok (some block)) :
    ∃ before first inner last after, Framed text before first inner last after ∧
      block = join "\n" (first :: inner ++ [last]) := by
  have hfound := h
  unfold envelopeBlockText at h
  dsimp only at h
  split_ifs at h with hnone hmany
  · cases h
  have hcount := not_or.mp hmany
  split at h
  · next b e hbegins hends =>
    split_ifs at h with hle hblank
    obtain ⟨before, first, rest, hlines, rfl, hfirst, hbefore, hrest⟩ :=
      linesWhere_eq_singleton.mp hbegins
    obtain ⟨front, last, after, hlines', rfl, hlast, hfront, hafter⟩ :=
      linesWhere_eq_singleton.mp hends
    have hprefix : before ++ [first] <+: front := by
      have hshort : before ++ [first] <+: splitOnChar 0x0A text := by
        rw [hlines]
        exact ⟨rest, by simp⟩
      have hlong : front <+: splitOnChar 0x0A text := by
        rw [hlines']
        exact List.prefix_append front _
      refine List.prefix_of_prefix_length_le hshort hlong ?_
      · rw [List.length_append, List.length_singleton]
        omega
    obtain ⟨inner, rfl⟩ := hprefix
    have hrest' : rest = inner ++ last :: after := by
      rw [hlines'] at hlines
      simpa using hlines.symm
    have hframe : Framed text before first inner last after := by
      refine ⟨?_, not_not.mp hcount.1, not_not.mp hcount.2, of_decide_eq_true hfirst,
        of_decide_eq_true hlast, ?_, ?_⟩
      · rw [hlines']
        simp
      · intro line hline
        rcases List.mem_append.mp hline with hline | hline
        · rintro (hmark | hmark)
          · exact absurd hmark (of_decide_eq_false (hbefore line hline))
          · refine absurd hmark (of_decide_eq_false (hfront line ?_))
            simp [hline]
        · rintro (hmark | hmark)
          · refine absurd hmark (of_decide_eq_false (hrest line ?_))
            simp [hrest', hline]
          · refine absurd hmark (of_decide_eq_false (hfront line ?_))
            simp [hline]
      · intro line hline
        have hdrop : (splitOnChar 0x0A text).drop ((before ++ [first] ++ inner).length + 1) =
            after := by
          have heq : splitOnChar 0x0A text = (before ++ [first] ++ inner ++ [last]) ++ after := by
            rw [hlines']
            simp
          have hlength : (before ++ [first] ++ inner ++ [last]).length =
              (before ++ [first] ++ inner).length + 1 := List.length_append
          rw [heq]
          exact List.drop_left' hlength
        rw [hdrop, List.any_eq_true, not_exists] at hblank
        by_contra hnot
        exact hblank line ⟨hline, by simpa using hnot⟩
    refine ⟨before, first, inner, last, after, hframe, ?_⟩
    exact Option.some.inj (Except.ok.inj (hfound.symm.trans hframe.envelopeBlockText))
  · cases h

/-- A text without a frame has no block, and no markers if it is not refused. -/
lemma envelopeBlockText_cases (text : Text) :
    (envelopeBlockText text = .ok none ∧ count envelopeBegin text = 0 ∧
        count envelopeEnd text = 0) ∨
      (∃ block, envelopeBlockText text = .ok (some block)) ∨
      IsEnvelopeError (envelopeBlockText text) := by
  unfold envelopeBlockText
  dsimp only
  split_ifs with hnone hmany
  · exact .inl ⟨rfl, hnone.2.2.1, hnone.2.2.2⟩
  · exact .inr (.inr ⟨_, rfl⟩)
  · split
    · next b e _ _ =>
      by_cases hle : e ≤ b
      · rw [if_pos hle]
        exact .inr (.inr ⟨_, rfl⟩)
      · rw [if_neg hle]
        split
        · exact .inr (.inr ⟨_, rfl⟩)
        · exact .inr (.inl ⟨_, rfl⟩)
    · exact .inr (.inr ⟨_, rfl⟩)

/-- The body of a frame stands between its marker lines. -/
lemma Framed.body (h : Framed text before first inner last after) :
    join "\n" ((splitOnChar 0x0A (join "\n" (first :: inner ++ [last]))).drop 1).dropLast =
      join "\n" inner := by
  have hpieces : ∀ line ∈ first :: inner ++ [last], (0x0A : CodePoint) ∉ line := by
    intro line hline
    have hmem : line ∈ splitOnChar 0x0A text := by
      rw [h.lines]
      simp only [List.mem_append, List.mem_cons, List.not_mem_nil, or_false] at hline ⊢
      tauto
    exact notMem_of_mem_splitOnChar text hmem
  have hsplit : splitOnChar 0x0A (join "\n" (first :: inner ++ [last])) =
      first :: inner ++ [last] := splitOnChar_join (by simp) hpieces
  rw [hsplit]
  simp

/-- Reading a frame validates the JSON of its body. -/
lemma Framed.extractEnvelope_ok {payload : Value} (h : Framed text before first inner last after)
    (hloads : rt.loads false (join "\n" inner) = .ok payload) :
    extractEnvelope rt text = some <$> validateEnvelope rt payload := by
  unfold extractEnvelope
  rw [h.envelopeBlockText, returned_bind]
  dsimp only
  rw [h.body, hloads]

/-- A body that is no JSON is an envelope error. -/
lemma Framed.extractEnvelope_decode {m : Text} (h : Framed text before first inner last after)
    (hloads : rt.loads false (join "\n" inner) = .error (.jsonDecodeError m)) :
    IsEnvelopeError (extractEnvelope rt text) := by
  unfold extractEnvelope
  rw [h.envelopeBlockText, returned_bind]
  dsimp only
  rw [h.body, hloads]
  exact ⟨_, rfl⟩

/-- Whatever else its reader raises goes through. -/
lemma Framed.extractEnvelope_error {e : Exc} (h : Framed text before first inner last after)
    (hloads : rt.loads false (join "\n" inner) = .error e) (he : ∀ m, e ≠ .jsonDecodeError m) :
    extractEnvelope rt text = .error e := by
  unfold extractEnvelope
  rw [h.envelopeBlockText, returned_bind]
  dsimp only
  rw [h.body, hloads]
  cases e with
  | jsonDecodeError m => exact absurd rfl (he m)
  | _ => rfl

end

/-! ## Reading any text -/

/-- The body is no JSON, or JSON whose look-ups do not stick: its reader raises nothing else. -/
def BodySettles (rt : Runtime) (body : Text) : Prop :=
  (∃ m, rt.loads false body = .error (.jsonDecodeError m)) ∨
    ∃ payload, rt.loads false body = .ok payload ∧ ¬ EnvelopeStuck payload

/-- The answer is `None` for a text without markers, an envelope the validator accepts, or an
envelope error. -/
def Answers (rt : Runtime) (text : Text) : Prop :=
  match extractEnvelope rt text with
  | .ok none => ¬ envelopeBegin <:+: text ∧ ¬ envelopeEnd <:+: text
  | .ok (some envelope) => validateEnvelope rt (.obj envelope) = .ok envelope
  | .error e => ∃ m, e = .envelopeError m

section
variable {rt : Runtime} {text : Text} {before inner after : List Text} {first last : Text}

/-- A text with a frame is answered exactly when its body settles. -/
lemma Framed.answers_iff (h : Framed text before first inner last after) :
    Answers rt text ↔ BodySettles rt (join "\n" inner) := by
  unfold Answers BodySettles
  cases hloads : rt.loads false (join "\n" inner) with
  | error e =>
      by_cases hdecode : ∃ m, e = .jsonDecodeError m
      · obtain ⟨m, rfl⟩ := hdecode
        obtain ⟨m', hm'⟩ := h.extractEnvelope_decode hloads
        rw [hm']
        simp
      · have hne : ∀ m, e ≠ .jsonDecodeError m := fun m hm => hdecode ⟨m, hm⟩
        rw [h.extractEnvelope_error hloads hne]
        have hnot : ¬ ∃ m, e = .envelopeError m := by
          rintro ⟨m, rfl⟩
          unfold Runtime.loads at hloads
          split at hloads <;> cases hloads
        simp [hnot, hne]
  | ok payload =>
      rw [h.extractEnvelope_ok hloads]
      have hsettled : (∃ m, (.ok payload : Except Exc Value) = .error (.jsonDecodeError m)) ∨
          (∃ p, (.ok payload : Except Exc Value) = .ok p ∧ ¬ EnvelopeStuck p) ↔
            ¬ EnvelopeStuck payload := by
        simp
      rw [hsettled]
      by_cases hrefused : IsEnvelopeError (validateEnvelope rt payload)
      · obtain ⟨m, hm⟩ := hrefused
        have hnot : ¬ EnvelopeStuck payload := by
          intro hstuck
          obtain ⟨m', hm'⟩ := hstuck.raises rt
          rw [hm] at hm'
          cases hm'
        rw [hm]
        simp [hnot]
      · rcases validateEnvelope_cases hrefused with ⟨items, rfl, hvalid⟩ | hstuck
        · have hnot : ¬ EnvelopeStuck (.obj items) := by
            intro hstuck
            obtain ⟨m', hm'⟩ := hstuck.raises rt
            rw [hvalid.validates] at hm'
            cases hm'
          rw [hvalid.validates]
          simp [hnot, hvalid.validates]
        · obtain ⟨m, hm⟩ := hstuck.raises rt
          rw [hm]
          simp [hstuck]

/-- So a text is answered exactly when the body of its frame settles, if it has one. -/
lemma answers_iff (text : Text) :
    Answers rt text ↔ ∀ before first inner last after,
      Framed text before first inner last after → BodySettles rt (join "\n" inner) := by
  constructor
  · intro h before first inner last after hframe
    exact hframe.answers_iff.mp h
  · intro h
    rcases envelopeBlockText_cases text with ⟨hnone, hbegin, hend⟩ | ⟨block, hblock⟩ | ⟨m, hm⟩
    · unfold Answers extractEnvelope
      rw [hnone]
      exact ⟨(count_eq_zero (by decide)).mp hbegin, (count_eq_zero (by decide)).mp hend⟩
    · obtain ⟨before, first, inner, last, after, hframe, -⟩ := framed_of hblock
      exact hframe.answers_iff.mpr (h before first inner last after hframe)
    · unfold Answers extractEnvelope
      rw [hm]
      exact ⟨m, rfl⟩

end

/-! ## Reading what was written -/

/-- The text holds neither marker. -/
def MarkerFree (t : Text) : Prop := ¬ envelopeBegin <:+: t ∧ ¬ envelopeEnd <:+: t

instance (t : Text) : Decidable (MarkerFree t) := inferInstanceAs (Decidable (_ ∧ _))

/-- The text with its block: what stands before it, a newline, the block and what follows it. -/
def withBlock (before body after : Text) : Text :=
  before ++ 0x0A :: (envelopeBegin ++ 0x0A :: (body ++ 0x0A :: (envelopeEnd ++ after)))

section
variable {before body after : Text}

/-- A marker is no white space, has no line end, and no writer of JSON escapes it. -/
structure IsMarker (marker : Text) : Prop where
  head : marker.head? = some 0x3C
  line : (0x0A : CodePoint) ∉ marker
  solid : ∀ c ∈ marker, isSpace c = false
  plain : ∀ c ∈ marker, escapeChar c = [c] ∧ c ≠ 0x5C

lemma isMarker_begin : IsMarker envelopeBegin := by
  have hsolid : (envelopeBegin.all fun c => !isSpace c) = true := by decide
  have hplain : (envelopeBegin.all fun c => decide (escapeChar c = [c] ∧ c ≠ 0x5C)) = true := by
    decide
  refine ⟨by decide, by decide, fun c hc => ?_, fun c hc => ?_⟩
  · simpa using List.all_eq_true.mp hsolid c hc
  · exact of_decide_eq_true (List.all_eq_true.mp hplain c hc)

lemma isMarker_end : IsMarker envelopeEnd := by
  have hsolid : (envelopeEnd.all fun c => !isSpace c) = true := by decide
  have hplain : (envelopeEnd.all fun c => decide (escapeChar c = [c] ∧ c ≠ 0x5C)) = true := by
    decide
  refine ⟨by decide, by decide, fun c hc => ?_, fun c hc => ?_⟩
  · simpa using List.all_eq_true.mp hsolid c hc
  · exact of_decide_eq_true (List.all_eq_true.mp hplain c hc)

lemma IsMarker.quote {marker : Text} (h : IsMarker marker) : (0x22 : CodePoint) ∉ marker :=
  fun hmem => absurd (h.plain _ hmem).1 (by decide)

lemma IsMarker.ne_nil {marker : Text} (h : IsMarker marker) : marker ≠ [] := by
  intro hnil
  have hhead := h.head
  rw [hnil] at hhead
  cases hhead

/-- White space adds no marker. -/
lemma IsMarker.count_blank {marker t : Text} (h : IsMarker marker)
    (hafter : ∀ c ∈ after, isSpace c = true) : count marker (t ++ after) = count marker t := by
  cases after with
  | nil => rw [List.append_nil]
  | cons c after =>
      obtain ⟨hc, hafter⟩ := List.forall_mem_cons.mp hafter
      have hnot : c ∉ marker := by
        intro hmem
        rw [h.solid c hmem] at hc
        cases hc
      have hplain : (0x3C : CodePoint) ∉ after := by
        intro hmem
        exact absurd (hafter _ hmem) (by decide)
      rw [count_separated hnot h.ne_nil,
        (count_eq_zero h.ne_nil).mpr (not_infix_of_plain h.head hplain), Nat.add_zero]

/-- The markers of a text with its block: one, and those of its parts. -/
lemma count_withBlock (before body : Text) {marker : Text} (h : IsMarker marker)
    (hone : count marker envelopeBegin + count marker envelopeEnd = 1)
    (hafter : ∀ c ∈ after, isSpace c = true) :
    count marker (withBlock before body after) = count marker before + count marker body + 1 := by
  unfold withBlock
  rw [count_separated h.line h.ne_nil, count_separated h.line h.ne_nil,
    count_separated h.line h.ne_nil, h.count_blank hafter]
  omega

/-- A line of a text without markers is no marker line. -/
lemma MarkerFree.lines {t : Text} (h : MarkerFree t) :
    ∀ line ∈ splitOnChar 0x0A t, ¬ IsMarkerLine line := by
  intro line hline hmark
  have hinfix : line <:+: t := infix_of_mem_splitOnChar hline
  rcases hmark with hmark | hmark
  · exact h.1 (hmark ▸ (strip_within line).trans hinfix)
  · exact h.2 (hmark ▸ (strip_within line).trans hinfix)

/-- Between texts without markers and before blank lines, the block is framed. -/
lemma framed_withBlock (hbefore : MarkerFree before) (hbody : MarkerFree body)
    (hafter : isBlank after = true) :
    ∃ last rest, Framed (withBlock before body after) (splitOnChar 0x0A before) envelopeBegin
      (splitOnChar 0x0A body) last rest := by
  have hspace := isBlank_iff.mp hafter
  obtain ⟨first, rest, hpieces, hend⟩ :=
    splitOnChar_append_of_notMem isMarker_end.line after
  have hblank : ∀ line ∈ first :: rest, ∀ c ∈ line, isSpace c = true := by
    intro line hline c hc
    rw [← hpieces] at hline
    exact hspace c ((infix_of_mem_splitOnChar hline).subset hc)
  refine ⟨envelopeEnd ++ first, rest, ?_, ?_, ?_, by decide, ?_, ?_, ?_⟩
  · rw [withBlock, splitOnChar_append, splitOnChar_append, splitOnChar_append, hend,
      splitOnChar_of_notMem isMarker_begin.line]
    simp
  · rw [count_withBlock before body isMarker_begin (by decide) hspace,
      (count_eq_zero isMarker_begin.ne_nil).mpr hbefore.1,
      (count_eq_zero isMarker_begin.ne_nil).mpr hbody.1]
  · rw [count_withBlock before body isMarker_end (by decide) hspace,
      (count_eq_zero isMarker_end.ne_nil).mpr hbefore.2,
      (count_eq_zero isMarker_end.ne_nil).mpr hbody.2]
  · exact strip_append_blank (fun c hc => isMarker_end.solid c (List.mem_of_mem_head? hc))
      (fun c hc => isMarker_end.solid c (List.mem_of_mem_getLast? hc)) isMarker_end.ne_nil
      (hblank first List.mem_cons_self)
  · intro line hline
    rcases List.mem_append.mp hline with hline | hline
    · exact hbefore.lines line hline
    · exact hbody.lines line hline
  · exact fun line hline => isBlank_iff.mpr (hblank line (List.mem_cons_of_mem _ hline))

/-- A second marker is refused. -/
lemma refused_withBlock {marker : Text} (h : marker = envelopeBegin ∨ marker = envelopeEnd)
    (hbody : marker <:+: body) (hafter : isBlank after = true) :
    IsEnvelopeError (envelopeBlockText (withBlock before body after)) := by
  have hspace := isBlank_iff.mp hafter
  have hmarker : IsMarker marker := by
    rcases h with rfl | rfl
    · exact isMarker_begin
    · exact isMarker_end
  have hone : count marker envelopeBegin + count marker envelopeEnd = 1 := by
    rcases h with rfl | rfl
    · decide
    · decide
  have hcount := count_withBlock before body hmarker hone hspace
  have hsome : count marker body ≠ 0 := fun hzero => (count_eq_zero hmarker.ne_nil).mp hzero hbody
  rcases envelopeBlockText_cases (withBlock before body after) with
    ⟨-, hbegin, hend⟩ | ⟨block, hblock⟩ | hrefused
  · rcases h with rfl | rfl <;> omega
  · obtain ⟨_, _, _, _, _, hframe, -⟩ := framed_of hblock
    have hbegins := hframe.begins
    have hends := hframe.ends
    rcases h with rfl | rfl <;> omega
  · exact hrefused

end

/-! ## The written body -/

/-- `repr` of the float reads back as the float, and holds no `<`. -/
structure ReprReads (rt : Runtime) (x : Binary64) : Prop where
  renders : (Layout.indented 2 rt.floatRepr).Renders x
  plain : (0x3C : CodePoint) ∉ rt.floatRepr x

/-- The block of the envelope is written, and read back from between the two texts it is an equal
envelope. -/
def RoundTrips (rt : Runtime) (envelope : Envelope) (before after : Text) : Prop :=
  ∃ block envelope', renderEnvelopeBlock rt (.obj envelope) = .ok block ∧
    extractEnvelope rt (before ++ "\n" ++ block ++ after) = .ok (some envelope') ∧
    (Value.obj envelope').eqv (.obj envelope) = true

section
variable {rt : Runtime} {envelope : Envelope}

/-- The body the writer puts between the markers. -/
def bodyText (rt : Runtime) (envelope : Envelope) : Text :=
  (Value.obj (sortedItems envelope)).laid (.indented 2 rt.floatRepr) 0

/-- A valid envelope is written. -/
lemma EnvelopeValid.renders (h : EnvelopeValid envelope)
    (hkeyed : (Value.obj envelope).wellKeyed = true) (hroom : 3 ≤ rt.dumpsDepth) :
    renderEnvelopeBlock rt (.obj envelope) =
      .ok (envelopeBegin ++ "\n" ++ bodyText rt envelope ++ "\n" ++ envelopeEnd) := by
  have hmodest := h.modest hkeyed
  have hrefusal : (Value.obj envelope).sortKeys.lenientRefusal rt.dumpsDepth = none := by
    refine lenientRefusal_eq_none _ ?_ (shortInts_sortKeys _ hmodest.shortInts)
    rw [depth_sortKeys]
    exact hmodest.depth.trans hroom
  rw [renderEnvelopeBlock, h.validates, returned_bind, Runtime.dumpsIndented, hrefusal,
    sortKeys_obj]
  rfl

/-- And its body reads back with its keys in order. -/
lemma EnvelopeValid.loads (h : EnvelopeValid envelope)
    (hkeyed : (Value.obj envelope).wellKeyed = true) (hroom : 3 ≤ rt.loadsDepth)
    (hfloats : ∀ x ∈ (Value.obj envelope).floats, ReprReads rt x) :
    rt.loads false (bodyText rt envelope) = .ok (.obj (sortedItems envelope)) := by
  have hmodest := h.modest hkeyed
  have hread := @loads_laid _ ⟨rt.loadsDepth, false⟩ (Layout.indented_spaced 2 rt.floatRepr)
    (Value.obj envelope).sortKeys 0 (fun s _ => Layout.indented_spells 2 _ s)
    (fun x hx => (hfloats x (floats_sortKeys _ hx)).renders)
    (shortInts_sortKeys _ hmodest.shortInts) (wellKeyed_sortKeys _ hkeyed)
  rw [depth_sortKeys, if_pos (hmodest.depth.trans hroom), sortKeys_obj] at hread
  rw [Runtime.loads, bodyText, hread]

/-- A marker occurs in the body where it occurs in a string of the envelope. -/
lemma markerFree_bodyText (hfloats : ∀ x ∈ (Value.obj envelope).floats, ReprReads rt x) :
    MarkerFree (bodyText rt envelope) ↔ ∀ s ∈ (Value.obj envelope).strings, MarkerFree s := by
  have hforeign : (Layout.indented 2 rt.floatRepr).Foreign 0x3C := ⟨by decide, by decide⟩
  have hplain : ∀ x ∈ (Value.obj (sortedItems envelope)).floats,
      (0x3C : CodePoint) ∉ (Layout.indented 2 rt.floatRepr).floatText x := by
    intro x hx
    rw [← sortKeys_obj] at hx
    exact (hfloats x (floats_sortKeys _ hx)).plain
  have hoccurs : ∀ marker, IsMarker marker →
      (marker <:+: bodyText rt envelope ↔ ∃ s ∈ (Value.obj envelope).strings, marker <:+: s) := by
    intro marker hmarker
    have hbody := infix_laid (Layout.indented_spaced 2 rt.floatRepr) hmarker.quote hmarker.head
      hforeign (.obj (sortedItems envelope)) 0 [] hplain
    have hnil : ¬ marker <:+: [] := fun h => hmarker.ne_nil (List.infix_nil.mp h)
    have hspell : ∀ s, marker <:+: (Layout.indented 2 rt.floatRepr).spell s ↔ marker <:+: s :=
      fun s => infix_spellRaw hmarker.plain hmarker.head (by decide)
    rw [List.append_nil] at hbody
    rw [bodyText, hbody, or_iff_left hnil, ← sortKeys_obj]
    simp only [mem_strings_sortKeys, hspell]
  have hbegin := hoccurs envelopeBegin isMarker_begin
  have hend := hoccurs envelopeEnd isMarker_end
  unfold MarkerFree
  rw [hbegin, hend]
  push Not
  constructor
  · exact fun h s hs => ⟨h.1 s hs, h.2 s hs⟩
  · exact fun h => ⟨fun s hs => (h s hs).1, fun s hs => (h s hs).2⟩

/-- An envelope round-trips exactly when none of its strings holds a marker. -/
lemma roundTrips_iff (hloads : 3 ≤ rt.loadsDepth) (hdumps : 3 ≤ rt.dumpsDepth)
    {before after : Text} (hvalid : validateEnvelope rt (.obj envelope) = .ok envelope)
    (hkeyed : (Value.obj envelope).wellKeyed = true)
    (hfloats : ∀ x ∈ (Value.obj envelope).floats, ReprReads rt x) (hbefore : MarkerFree before)
    (hafter : isBlank after = true) :
    RoundTrips rt envelope before after ↔ ∀ s ∈ (Value.obj envelope).strings, MarkerFree s := by
  obtain ⟨-, hvalid⟩ := validateEnvelope_eq_ok.mp hvalid
  have hrender := hvalid.renders hkeyed hdumps
  have htext : before ++ "\n" ++ (envelopeBegin ++ "\n" ++ bodyText rt envelope ++ "\n" ++
      envelopeEnd) ++ after = withBlock before (bodyText rt envelope) after := by
    show before ++ [0x0A] ++ (envelopeBegin ++ [0x0A] ++ bodyText rt envelope ++ [0x0A] ++
      envelopeEnd) ++ after = _
    simp [withBlock]
  rw [← markerFree_bodyText hfloats]
  constructor
  · rintro ⟨block, envelope', hblock, hextract, -⟩
    obtain rfl := Except.ok.inj (hrender.symm.trans hblock)
    rw [htext] at hextract
    have hnot : ¬ IsEnvelopeError (envelopeBlockText
        (withBlock before (bodyText rt envelope) after)) := by
      rintro ⟨m, hm⟩
      rw [extractEnvelope, hm] at hextract
      cases hextract
    exact ⟨fun h => hnot (refused_withBlock (.inl rfl) h hafter),
      fun h => hnot (refused_withBlock (.inr rfl) h hafter)⟩
  · intro hbody
    obtain ⟨last, rest, hframe⟩ := framed_withBlock hbefore hbody hafter
    have hread : rt.loads false (join "\n" (splitOnChar 0x0A (bodyText rt envelope))) =
        .ok (.obj (sortedItems envelope)) := by
      show rt.loads false (join [0x0A] (splitOnChar 0x0A (bodyText rt envelope))) = _
      rw [join_splitOnChar]
      exact hvalid.loads hkeyed hloads hfloats
    refine ⟨_, sortedItems envelope, hrender, ?_, ?_⟩
    · rw [htext, hframe.extractEnvelope_ok hread, (hvalid.sorted hkeyed).validates]
      rfl
    · have hself : ∀ x ∈ (Value.obj envelope).floats, x.eqv x = true := by
        intro x hx
        have hone := (hvalid.modest hkeyed).floats x hx
        cases x with
        | finite m e => simp [Binary64.eqv]
        | _ => cases hone
      rw [← sortKeys_obj, eqv_sortKeys]
      exact eqv_self _ hkeyed hself

end

/-! ## Both promises -/

/-- An accepted envelope round-trips exactly when none of its strings holds a marker, and a text is
answered as promised exactly when the body of its frame settles. -/
theorem envelope_roundTrip (rt : Runtime) (hloads : 3 ≤ rt.loadsDepth)
    (hdumps : 3 ≤ rt.dumpsDepth) :
    (∀ envelope before after, validateEnvelope rt (.obj envelope) = .ok envelope →
      (Value.obj envelope).wellKeyed = true →
      (∀ x ∈ (Value.obj envelope).floats, ReprReads rt x) → MarkerFree before →
      isBlank after = true →
      (RoundTrips rt envelope before after ↔
        ∀ s ∈ (Value.obj envelope).strings, MarkerFree s)) ∧
    ∀ text, Answers rt text ↔ ∀ before first inner last after,
      Framed text before first inner last after → BodySettles rt (join "\n" inner) := by
  constructor
  · intro envelope before after hvalid hkeyed hfloats hbefore hafter
    exact roundTrips_iff hloads hdumps hvalid hkeyed hfloats hbefore hafter
  · exact answers_iff

/-- An envelope whose axes all declare one member. -/
def memberEnvelope (member : Text) : Envelope :=
  (("schema_version" : Text), Value.int 1) ::
    (envelopeSetAxes.map fun axis => (axis, Value.obj [("state", .str "declared"),
      ("default_applied", .bool false), ("value", .arr [.str member]),
      ("source", .obj [(member, .str "engine_owned")])])) ++
    [(envelopeEnumAxis, Value.obj [("state", .str "declared"), ("default_applied", .bool false),
      ("value", .str "user_decision"), ("source", .str "engine_owned")])]

/-- What passes is returned. -/
lemma validateEnvelope_of_isOk {rt : Runtime} {envelope : Envelope}
    (h : (validateEnvelope rt (.obj envelope)).isOk = true) :
    validateEnvelope rt (.obj envelope) = .ok envelope := by
  cases hvalid : validateEnvelope rt (.obj envelope) with
  | error e =>
      rw [hvalid] at h
      cases h
  | ok envelope' =>
      obtain ⟨heq, -⟩ := validateEnvelope_eq_ok.mp hvalid
      obtain rfl := Value.obj.inj heq
      rfl

theorem envelope_roundTrip_readme :
    RoundTrips .standard (memberEnvelope "README.md") "Describe the project." "\n" ∧
      Answers .standard "Describe the project." := by
  have hroundTrip := envelope_roundTrip .standard (by decide) (by decide)
  have hvalid : validateEnvelope .standard (.obj (memberEnvelope "README.md")) =
      .ok (memberEnvelope "README.md") := validateEnvelope_of_isOk (by decide)
  have hfloats : (Value.obj (memberEnvelope "README.md")).floats = [] :=
    floats_of_floatFree (by decide)
  constructor
  · refine (hroundTrip.1 _ _ _ hvalid (by decide) ?_ (by decide)
      (by decide)).mpr (by decide)
    intro x hx
    rw [hfloats] at hx
    exact absurd hx List.not_mem_nil
  · refine (hroundTrip.2 _).mpr ?_
    intro before first inner last after hframe
    have hcount := hframe.begins
    exact absurd hcount (by decide)

/-- The reading raised a `TypeError`. -/
def raisesTypeError {α : Type} : Except Exc α → Bool
  | .error (.typeError _) => true
  | _ => false

/-- A text whose reading raises a `TypeError` gets no answer. -/
lemma not_answers_of_raises {rt : Runtime} {text : Text}
    (h : raisesTypeError (extractEnvelope rt text) = true) : ¬ Answers rt text := by
  intro hanswers
  unfold Answers at hanswers
  cases hextract : extractEnvelope rt text with
  | ok envelope =>
      rw [hextract] at h
      cases h
  | error e =>
      rw [hextract] at h hanswers
      obtain ⟨m, rfl⟩ := hanswers
      cases h

/-- The policy's provenance is a list. -/
def listProvenanceInput : Text :=
  envelopeBegin ++ "\n\x7b\"schema_version\":1," ++
    join "," (envelopeSetAxes.map fun axis => declaredAxis axis "[]" "\x7b\x7d") ++ "," ++
    declaredAxis envelopeEnumAxis "\"user_decision\"" "[]" ++ "\x7d\n" ++ envelopeEnd

/-- A member that spells the begin marker is written and never read; a list as provenance raises a
`TypeError`. -/
theorem not_envelope_roundTrip :
    (validateEnvelope .standard (.obj (memberEnvelope envelopeBegin)) =
        .ok (memberEnvelope envelopeBegin) ∧
      ¬ RoundTrips .standard (memberEnvelope envelopeBegin) "Describe the project." "\n") ∧
    ¬ Answers .standard listProvenanceInput := by
  have hvalid : validateEnvelope .standard (.obj (memberEnvelope envelopeBegin)) =
      .ok (memberEnvelope envelopeBegin) := validateEnvelope_of_isOk (by decide)
  refine ⟨⟨hvalid, ?_⟩, ?_⟩
  · have hfloats : (Value.obj (memberEnvelope envelopeBegin)).floats = [] :=
      floats_of_floatFree (by decide)
    rw [roundTrips_iff (by decide) (by decide) hvalid (by decide)
      (fun x hx => absurd hx (by rw [hfloats]; exact List.not_mem_nil)) (by decide)
      (by decide)]
    have hmember : envelopeBegin ∈ (Value.obj (memberEnvelope envelopeBegin)).strings := by
      decide
    exact fun h => (h envelopeBegin hmember).1 (List.infix_refl _)
  · exact not_answers_of_raises (by decide +kernel)

end AgentOrch
