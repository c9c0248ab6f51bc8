import AgentOrch.Properties.YamlBlocks

/-!
# What a record comes back as

A record written to a lifecycle file is read back from its bytes.  A container without items leaves
no lines behind, so the reader finds `{}` where an empty list stood under a key, and `None` where an
empty container stood in a list; everything else comes back as it was, and a record that was read
once is stable (`readYamlBytes_writeYaml`).
-/

namespace AgentOrch

open Py Json

namespace Yaml

/-! ## Files -/

section
variable {rt : Runtime}

/-- A text is one line, and not blank. -/
structure Standing (line : Text) : Prop where
  oneLine : OneLine line
  solid : isBlank line = false

lemma standing_of_mem {line : Text} {c : CodePoint} (h : OneLine line) (hc : c ∈ line)
    (hspace : isSpace c = false) : Standing line where
  oneLine := h
  solid := by
    by_contra hblank
    rw [Bool.not_eq_false, isBlank_iff] at hblank
    rw [hblank c hc] at hspace
    cases hspace

lemma oneLine_spaces (indent : ℕ) : OneLine (spaces indent) := by
  intro c hc
  rw [List.eq_of_mem_replicate hc]
  decide

lemma oneLine_separators : OneLine ":" ∧ OneLine ": " ∧ OneLine "-" ∧ OneLine "- " := by
  decide

mutual

/-- Every line of a value is one line, and not blank. -/
lemma standing_yamlLines : ∀ (v : Value) {indent : ℕ} {line : Text}, Plain rt v →
    line ∈ yamlLines rt indent v → isContainer v = true → Standing line
  | .arr items, _, _, hplain, hline, _ => by
      rw [yamlLines] at hline
      exact standing_yamlListLines items hplain hline
  | .obj items, _, _, hplain, hline, _ => by
      rw [yamlLines] at hline
      exact standing_yamlDictLines items hplain hline
  | .null, _, _, _, _, hcontainer => nomatch hcontainer
  | .bool _, _, _, _, _, hcontainer => nomatch hcontainer
  | .int _, _, _, _, _, hcontainer => nomatch hcontainer
  | .float _, _, _, _, _, hcontainer => nomatch hcontainer
  | .str _, _, _, _, _, hcontainer => nomatch hcontainer

lemma standing_yamlListLines : ∀ (items : List Value) {indent : ℕ} {line : Text},
    PlainItems rt items → line ∈ yamlListLines rt indent items → Standing line
  | [], _, _, _, hline => by
      rw [yamlListLines] at hline
      cases hline
  | item :: items, indent, line, hplain, hline => by
      rw [yamlListLines] at hline
      rcases List.mem_append.mp hline with hline | hline
      swap
      · exact standing_yamlListLines items hplain.2 hline
      have hdash : ∀ t : Text, OneLine t → 0x2D ∈ t → Standing (spaces indent ++ t) := fun t ht hc =>
        standing_of_mem ((oneLine_spaces indent).append ht) (List.mem_append_right _ hc)
          (by decide)
      cases hcontainer : isContainer item with
      | false =>
          rw [hcontainer, if_neg Bool.false_ne_true, List.mem_singleton] at hline
          rw [hline, List.append_assoc]
          have hscalar := inline_yamlScalar hcontainer hplain.1
          exact hdash _ (oneLine_separators.2.2.2.append hscalar.oneLine)
            (List.mem_append_left _ List.mem_cons_self)
      | true =>
          rw [hcontainer, if_pos rfl] at hline
          rcases List.mem_cons.mp hline with rfl | hline
          · exact hdash _ oneLine_separators.2.2.1 List.mem_cons_self
          · exact standing_yamlLines item hplain.1 hline hcontainer

lemma standing_yamlDictLines : ∀ (items : List (Text × Value)) {indent : ℕ} {line : Text},
    PlainPairs rt items → line ∈ yamlDictLines rt indent items → Standing line
  | [], _, _, _, hline => by
      rw [yamlDictLines] at hline
      cases hline
  | (key, item) :: items, indent, line, hplain, hline => by
      rw [yamlDictLines] at hline
      rcases List.mem_append.mp hline with hline | hline
      swap
      · exact standing_yamlDictLines items hplain.2.2 hline
      have hcolon : ∀ t : Text, OneLine t → 0x3A ∈ t → Standing (spaces indent ++ key ++ t) :=
        fun t ht hc => standing_of_mem
          (((oneLine_spaces indent).append hplain.1.oneLine).append ht)
          (List.mem_append_right _ hc) (by decide)
      cases hcontainer : isContainer item with
      | false =>
          rw [hcontainer, if_neg Bool.false_ne_true, List.mem_singleton] at hline
          rw [hline, List.append_assoc]
          have hscalar := inline_yamlScalar hcontainer hplain.2.1
          exact hcolon _ (oneLine_separators.2.1.append hscalar.oneLine)
            (List.mem_append_left _ List.mem_cons_self)
      | true =>
          rw [hcontainer, if_pos rfl] at hline
          rcases List.mem_cons.mp hline with rfl | hline
          · exact hcolon _ oneLine_separators.1 List.mem_cons_self
          · exact standing_yamlLines item hplain.2.1 hline hcontainer

end

/-- A line that has begun goes on to its newline. -/
lemma splitlinesFrom_line {line t rest : Text} (h : OneLine t) :
    splitlinesFrom line false (t ++ 0x0A :: rest) = (line ++ t) :: splitlines rest := by
  induction t generalizing line with
  | nil =>
      rw [List.nil_append, List.append_nil, splitlinesFrom_cons]
      rfl
  | cons c t ih =>
      have hc := h c List.mem_cons_self
      rw [List.cons_append, splitlinesFrom_cons, hc, if_neg Bool.false_ne_true,
        ih fun d hd => h d (List.mem_cons_of_mem c hd), List.append_assoc]
      rfl

/-- The lines of a file are the lines that were joined. -/
lemma splitlines_join {lines : List Text} (hne : lines ≠ []) (h : ∀ line ∈ lines, OneLine line) :
    splitlines (join [0x0A] lines ++ [0x0A]) = lines := by
  induction lines with
  | nil => exact absurd rfl hne
  | cons line lines ih =>
      have hline := h line List.mem_cons_self
      cases lines with
      | nil =>
          rw [join, splitlines, splitlinesFrom_line hline]
          rfl
      | cons next lines =>
          have hrest := ih (List.cons_ne_nil _ _) fun l hl => h l (List.mem_cons_of_mem _ hl)
          rw [join, List.append_assoc, List.append_assoc, splitlines, List.cons_append,
            List.nil_append, splitlinesFrom_line hline, hrest]
          · rfl
          · exact List.cons_ne_nil _ _

/-- A text without a carriage return is read as it stands. -/
lemma universalNewlines_of_notMem {t : Text} (h : 0x0D ∉ t) : universalNewlines t = t := by
  unfold universalNewlines
  induction t with
  | nil => rfl
  | cons c t ih =>
      rw [List.mem_cons, not_or] at h
      by_cases hlf : c = 0x0A
      · subst hlf
        rw [newlinesFrom_lf, ih h.2]
      · rw [newlinesFrom_cons (Ne.symm h.1) hlf, ih h.2]

lemma mem_join {lines : List Text} {c : CodePoint} (h : c ∈ join [0x0A] lines) :
    c = 0x0A ∨ ∃ line ∈ lines, c ∈ line := by
  induction lines with
  | nil => cases h
  | cons line lines ih =>
      cases lines with
      | nil => exact .inr ⟨line, List.mem_cons_self, h⟩
      | cons next lines =>
          rw [join, List.append_assoc] at h
          · rcases List.mem_append.mp h with hline | h
            · exact .inr ⟨line, List.mem_cons_self, hline⟩
            · rcases List.mem_cons.mp h with rfl | h
              · exact .inl rfl
              · rcases ih h with hlf | ⟨l, hl, hc⟩
                · exact .inl hlf
                · exact .inr ⟨l, List.mem_cons_of_mem _ hl, hc⟩
          · exact List.cons_ne_nil _ _

/-- The text of a record is read as the record it settles to. -/
lemma readYaml_toYaml {room depth : ℕ} {data : List (Text × Value)} {text : Text}
    (hplain : PlainPairs rt data) (hkeyed : (Value.obj data).wellKeyed = true)
    (hdepth : (Value.obj data).depth ≤ depth) (h : toYaml rt room (.obj data) = .ok text) :
    readYaml rt depth (universalNewlines text) = .ok (.obj (settledPairs data)) := by
  unfold toYaml at h
  split at h
  · cases h
  · cases h
  · next hrefusal =>
    obtain rfl := Except.ok.inj h
    have hshort : (Value.obj data).shortInts = true := shortInts_of_lenientRefusal hrefusal
    have hstanding : ∀ line ∈ yamlLines rt 0 (.obj data), Standing line := fun line hline =>
      standing_yamlLines (.obj data) hplain hline rfl
    have hplainText : (0x0D : CodePoint) ∉ join [0x0A] (yamlLines rt 0 (.obj data)) ++ [0x0A] := by
      intro hmem
      rcases List.mem_append.mp hmem with hmem | hmem
      · rcases mem_join hmem with hlf | ⟨line, hline, hc⟩
        · cases hlf
        · have hbreak := (hstanding line hline).oneLine _ hc
          cases hbreak
      · cases List.mem_singleton.mp hmem
    rw [universalNewlines_of_notMem hplainText, readYaml]
    cases data with
    | nil => rfl
    | cons p data =>
        have hne : yamlLines rt 0 (.obj (p :: data)) ≠ [] :=
          yamlLines_ne_nil rfl rfl hplain
        have hfilter : (splitlines (join [0x0A] (yamlLines rt 0 (.obj (p :: data))) ++ [0x0A])).filter
            (fun line => !isBlank line) = yamlLines rt 0 (.obj (p :: data)) := by
          rw [splitlines_join hne fun line hline => (hstanding line hline).oneLine]
          refine List.filter_eq_self.mpr fun line hline => ?_
          rw [(hstanding line hline).solid]
          rfl
        rw [hfilter]
        have hblock := @parseBlock_yamlLines rt (.obj (p :: data))
          (2 * (yamlLines rt 0 (.obj (p :: data))).length + 2) depth 0 [] rfl rfl hplain hshort hkeyed
          hdepth (by rw [List.append_nil]) fun line hline => nomatch hline
        obtain ⟨line, lines, hlines, hindent, -⟩ :=
          @head_yamlDictLines rt 0 p.1 p.2 data hplain.1
        rw [List.append_nil] at hblock
        rw [yamlLines, hlines] at hblock ⊢
        dsimp only
        rw [hindent, hblock]
        rfl

/-! ## Records that come back unchanged -/

lemma isHollow_settled {v : Value} (h : isHollow v = false) : isHollow (settled v) = false := by
  cases v with
  | arr items =>
      cases items with
      | nil => cases h
      | cons item items => rfl
  | obj items =>
      cases items with
      | nil => cases h
      | cons p items => rfl
  | _ => rfl

mutual

lemma settled_settled : ∀ v : Value, settled (settled v) = settled v
  | .arr items => by rw [settled, settled, settledItems_settledItems items]
  | .obj items => by rw [settled, settled, settledPairs_settledPairs items]
  | .null => rfl
  | .bool _ => rfl
  | .int _ => rfl
  | .float _ => rfl
  | .str _ => rfl

lemma settledItems_settledItems : ∀ items : List Value,
    settledItems (settledItems items) = settledItems items
  | [] => rfl
  | item :: items => by
      rw [settledItems, settledItems, settledItems_settledItems items]
      cases hhollow : isHollow item with
      | true => rfl
      | false =>
          rw [if_neg Bool.false_ne_true, isHollow_settled hhollow, if_neg Bool.false_ne_true,
            settled_settled item]

/-- Nothing more is lost after the first time. -/
lemma settledPairs_settledPairs : ∀ items : List (Text × Value),
    settledPairs (settledPairs items) = settledPairs items
  | [] => rfl
  | (key, item) :: items => by
      rw [settledPairs, settledPairs, settledPairs_settledPairs items]
      cases hhollow : isHollow item with
      | true => rfl
      | false =>
          rw [if_neg Bool.false_ne_true, isHollow_settled hhollow, if_neg Bool.false_ne_true,
            settled_settled item]

end

lemma dictKeys_settledPairs (items : List (Text × Value)) :
    dictKeys (settledPairs items) = dictKeys items := by
  induction items with
  | nil => rfl
  | cons p items ih => exact congrArg (p.1 :: ·) ih

mutual

lemma plain_settled : ∀ {v : Value}, Plain rt v → Plain rt (settled v)
  | .arr _, h => plainItems_settled h
  | .obj _, h => plainPairs_settled h
  | .null, h => h
  | .bool _, h => h
  | .int _, h => h
  | .float _, h => h
  | .str _, h => h

lemma plainItems_settled : ∀ {items : List Value}, PlainItems rt items →
    PlainItems rt (settledItems items)
  | [], h => h
  | item :: _, h => by
      refine ⟨?_, plainItems_settled h.2⟩
      cases isHollow item with
      | true => exact trivial
      | false => exact plain_settled h.1

lemma plainPairs_settled : ∀ {items : List (Text × Value)}, PlainPairs rt items →
    PlainPairs rt (settledPairs items)
  | [], h => h
  | (_, item) :: _, h => by
      refine ⟨h.1, ?_, plainPairs_settled h.2.2⟩
      cases isHollow item with
      | true => exact trivial
      | false => exact plain_settled h.2.1

end

mutual

lemma wellKeyed_settled : ∀ {v : Value}, v.wellKeyed = true → (settled v).wellKeyed = true
  | .arr _, h => wellKeyedItems_settled h
  | .obj items, h => by
      rw [Value.wellKeyed, Bool.and_eq_true, decide_eq_true_eq] at h
      rw [settled, Value.wellKeyed, Bool.and_eq_true, decide_eq_true_eq, dictKeys_settledPairs]
      exact ⟨h.1, wellKeyedPairs_settled h.2⟩
  | .null, h => h
  | .bool _, h => h
  | .int _, h => h
  | .float _, h => h
  | .str _, h => h

lemma wellKeyedItems_settled : ∀ {items : List Value}, wellKeyedItems items = true →
    wellKeyedItems (settledItems items) = true
  | [], h => h
  | item :: _, h => by
      rw [wellKeyedItems, Bool.and_eq_true] at h
      rw [settledItems, wellKeyedItems, Bool.and_eq_true]
      refine ⟨?_, wellKeyedItems_settled h.2⟩
      cases isHollow item with
      | true => rfl
      | false => exact wellKeyed_settled h.1

lemma wellKeyedPairs_settled : ∀ {items : List (Text × Value)}, wellKeyedPairs items = true →
    wellKeyedPairs (settledPairs items) = true
  | [], h => h
  | (_, item) :: _, h => by
      rw [wellKeyedPairs, Bool.and_eq_true] at h
      rw [settledPairs, wellKeyedPairs, Bool.and_eq_true]
      refine ⟨?_, wellKeyedPairs_settled h.2⟩
      cases isHollow item with
      | true => rfl
      | false => exact wellKeyed_settled h.1

end

lemma depth_pos_of_hollow {v : Value} (h : isHollow v = true) : 1 ≤ v.depth := by
  cases v with
  | arr items => exact Nat.le_add_left _ _
  | obj items => exact Nat.le_add_left _ _
  | _ => cases h

mutual

lemma depth_settled : ∀ v : Value, (settled v).depth ≤ v.depth
  | .arr items => Nat.succ_le_succ (depthItems_settled items)
  | .obj items => Nat.succ_le_succ (depthPairs_settled items)
  | .null => le_rfl
  | .bool _ => le_rfl
  | .int _ => le_rfl
  | .float _ => le_rfl
  | .str _ => le_rfl

lemma depthItems_settled : ∀ items : List Value,
    depthItems (settledItems items) ≤ depthItems items
  | [] => le_rfl
  | item :: items => by
      have hrest := depthItems_settled items
      rw [settledItems, depthItems, depthItems]
      refine max_le ?_ (hrest.trans (le_max_right _ _))
      cases isHollow item with
      | true => exact Nat.zero_le _
      | false => exact (depth_settled item).trans (le_max_left _ _)

lemma depthPairs_settled : ∀ items : List (Text × Value),
    depthPairs (settledPairs items) ≤ depthPairs items
  | [] => le_rfl
  | (_, item) :: items => by
      have hrest := depthPairs_settled items
      rw [settledPairs, depthPairs, depthPairs]
      refine max_le ?_ (hrest.trans (le_max_right _ _))
      cases hhollow : isHollow item with
      | true => exact (depth_pos_of_hollow hhollow).trans (le_max_left _ _)
      | false => exact (depth_settled item).trans (le_max_left _ _)

end

lemma readYamlBytes_of_writeYaml {room depth : ℕ} {data : List (Text × Value)} {bytes : Bytes}
    (hplain : PlainPairs rt data) (hkeyed : (Value.obj data).wellKeyed = true)
    (hdepth : (Value.obj data).depth ≤ depth) (h : writeYaml rt room data = .ok bytes) :
    readYamlBytes rt depth bytes = .ok (.obj (settledPairs data)) := by
  obtain ⟨text, htext, h⟩ := bind_eq_ok.mp h
  unfold encodeStrict at h
  by_cases hencodable : Py.Encodable text
  · rw [if_pos hencodable] at h
    obtain rfl := Except.ok.inj h
    rw [readYamlBytes, ← encodeReplace_of_encodable hencodable, decodeStrict_encode hencodable]
    exact readYaml_toYaml hplain hkeyed hdepth htext
  · rw [if_neg hencodable] at h
    cases h

/-- A record that was written is read as the record it settles to: an empty list under a key as an
empty mapping, an empty container in a list as `None`, everything else as it was.  Written again, it
comes back unchanged. -/
theorem readYamlBytes_writeYaml {room depth : ℕ} {data : List (Text × Value)} {bytes : Bytes}
    (hplain : PlainPairs rt data) (hkeyed : (Value.obj data).wellKeyed = true)
    (hdepth : (Value.obj data).depth ≤ depth) (h : writeYaml rt room data = .ok bytes) :
    readYamlBytes rt depth bytes = .ok (.obj (settledPairs data)) ∧
      ∀ room' bytes', writeYaml rt room' (settledPairs data) = .ok bytes' →
        readYamlBytes rt depth bytes' = .ok (.obj (settledPairs data)) := by
  refine ⟨readYamlBytes_of_writeYaml hplain hkeyed hdepth h, fun room' bytes' h' => ?_⟩
  have hdepth' : (Value.obj (settledPairs data)).depth ≤ depth :=
    (depth_settled (.obj data)).trans hdepth
  have hagain := readYamlBytes_of_writeYaml (plainPairs_settled hplain)
    (@wellKeyed_settled (.obj data) hkeyed) hdepth' h'
  rwa [settledPairs_settledPairs] at hagain

end

/-- A record with a list that is lost, and a nested one that is not. -/
def sampleRecord : List (Text × Value) :=
  [("task_id", .str "t: 1"), ("gate", .obj []), ("candidates", .arr []),
    ("axes", .arr [.str "-", .arr [], .obj [("state", .null), ("tries", .int (-2))]])]

lemma plainPairs_sample : PlainPairs Runtime.standard sampleRecord := by
  have hkeys : ∀ key ∈ (["task_id", "gate", "candidates", "axes", "state", "tries"] : List Text),
      PlainKey key := by decide
  simp only [List.forall_mem_cons, List.not_mem_nil, false_imp_iff, forall_const, and_true] at hkeys
  obtain ⟨htask, hgate, hcandidates, haxes, hstate, htries⟩ := hkeys
  have htexts : PlainText "t: 1" ∧ PlainText "-" := by decide
  exact ⟨htask, htexts.1, hgate, trivial, hcandidates, trivial, haxes,
    ⟨htexts.2, trivial, ⟨hstate, trivial, htries, trivial, trivial⟩, trivial⟩, trivial⟩

theorem readYamlBytes_writeYaml_sample : ∃ bytes,
    writeYaml Runtime.standard 9 sampleRecord = .ok bytes ∧
    readYamlBytes Runtime.standard 9 bytes =
      .ok (.obj [("task_id", .str "t: 1"), ("gate", .obj []), ("candidates", .obj []),
        ("axes", .arr [.str "-", .null, .obj [("state", .null), ("tries", .int (-2))]])]) := by
  obtain ⟨bytes, hbytes⟩ : ∃ bytes, writeYaml Runtime.standard 9 sampleRecord = .ok bytes :=
    ⟨_, rfl⟩
  exact ⟨bytes, hbytes, (readYamlBytes_writeYaml plainPairs_sample (by decide) (by decide) hbytes).1⟩

end Yaml

end AgentOrch
