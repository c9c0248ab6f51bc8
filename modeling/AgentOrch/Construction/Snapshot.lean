import AgentOrch.Construction.Kanban.Rows
import AgentOrch.Construction.ReviewTask
import AgentOrch.Framework.JsonLayout
import AgentOrch.Framework.SortedDict

/-!
# Profile snapshots

A task runs from a snapshot of its profile: the canonical JSON of `to_dict`, written at submission
and validated again whenever the profile is needed.  Validation strips what it reads, so a profile
it returned is normal: validating its own dictionary, in whatever order the keys stand, gives the
same profile up to that order.
-/

namespace AgentOrch

open Py Json

/-! ## The snapshot -/

def Terminal.text : Terminal → Text
  | .done => "done"
  | .failed => "failed"

/-- A positive column of a stage. -/
def optNat : Option ℕ → Value
  | none => .null
  | some n => .int n

/-- The entry of a stage in `to_dict`. -/
def Stage.toDict (s : Stage) : Value :=
  match s.terminal with
  | some terminal => .obj [("terminal", .str terminal.text)]
  | none => .obj [("owner", Trajectory.optText (s.owner.map Owner.text)),
      ("attempt_cap", optNat s.attemptCap), ("timeout", optNat s.timeout),
      ("prompt", Trajectory.optText s.prompt),
      ("outcomes", .obj (s.outcomes.map fun o => (o.1, .str o.2)))]

/-- `Profile.to_dict` -/
def Profile.toDict (p : Profile) : Value :=
  .obj [("version", .int p.version), ("type", .str p.type),
    ("initial_stage", .str p.initialStage), ("max_transitions", .int p.maxTransitions),
    ("stages", .obj (p.stages.map fun s => (s.1, s.2.toDict))),
    ("edge_caps", .obj (p.edgeCaps.map fun c => (c.1, .int c.2)))]

/-- `json.loads(raw)` for bytes that `detect_encoding` takes for UTF-8. -/
def Runtime.loadsBytes (rt : Runtime) (raw : Bytes) : Except Exc Value :=
  match decodeStrict raw with
  | some t => rt.loads false t
  | none => .error .unicodeDecodeError

/-- `profile_from_snapshot`, once the file is read; `hash` is `sha256_bytes`. -/
def profileFromSnapshot (rt : Runtime) (hash : Bytes → Text) (raw : Bytes) (expectedHash : Text) :
    Except Exc Profile := do
  require (hash raw = expectedHash) (.profileError ("profile snapshot hash mismatch: expected " ++
    expectedHash ++ ", got " ++ hash raw))
  match rt.loadsBytes raw with
  | .error (.jsonDecodeError m) => throw (.profileError ("invalid profile snapshot JSON: " ++ m))
  | .error e => throw e
  | .ok data => validateProfile data

/-! ## Equal profiles -/

/-- `s == t`; the order of the outcomes does not count. -/
def Stage.equals (s t : Stage) : Bool :=
  s.name == t.name && s.owner == t.owner && s.attemptCap == t.attemptCap &&
    s.timeout == t.timeout && s.prompt == t.prompt &&
    sameDict (· == ·) s.outcomes t.outcomes && s.terminal == t.terminal

/-- `p == q`; the order of the stages and of the caps does not count. -/
def Profile.equals (p q : Profile) : Bool :=
  p.version == q.version && p.type == q.type && p.initialStage == q.initialStage &&
    p.maxTransitions == q.maxTransitions && sameDict Stage.equals p.stages q.stages &&
    sameDict (· == ·) p.edgeCaps q.edgeCaps

def Stage.sorted (s : Stage) : Stage := { s with outcomes := sortedDict s.outcomes }

/-- The profile with its stages, outcomes and caps in key order. -/
def Profile.sorted (p : Profile) : Profile := { p with
  stages := sortedDict (p.stages.map fun s => (s.1, s.2.sorted))
  edgeCaps := sortedDict p.edgeCaps }

/-- Sorting gives an equal profile. -/
lemma Stage.sorted_equals {s : Stage} (h : (dictKeys s.outcomes).Nodup) :
    s.sorted.equals s = true := by
  have houtcomes := @sameDict_sortedDict _ _ (fun a b => a == b) id h
    (fun p _ => beq_self_eq_true p.2)
  simp only [id, List.map_id'] at houtcomes
  simp [Stage.equals, Stage.sorted, houtcomes]

lemma Profile.WellFormed.sorted_equals {p : Profile} (h : p.WellFormed) :
    p.sorted.equals p = true := by
  have hstages := @sameDict_sortedDict _ _ Stage.equals Stage.sorted h.stages_nodup
    (fun s hs => Stage.sorted_equals (h.named s.1 s.2 hs).2.outcomes_nodup)
  have hcaps := @sameDict_sortedDict _ _ (fun a b => a == b) id h.caps_nodup
    (fun p _ => beq_self_eq_true p.2)
  simp only [id, List.map_id'] at hcaps
  simp [Profile.equals, Profile.sorted, hstages, hcaps]

/-! ## Normal profiles -/

/-- A text that validation leaves alone. -/
structure IsStripped (t : Text) : Prop where
  strip : strip t = t
  solid : isBlank t = false

/-- What validation makes of a stage. -/
structure Stage.Normal (s : Stage) : Prop extends Stage.WellFormed s where
  ended : ∀ t, s.terminal = some t → s = ⟨s.name, none, none, none, none, [], some t⟩
  works : s.terminal = none → ∃ owner cap timeout prompt, 0 < cap ∧ 0 < timeout ∧
    IsStripped prompt ∧
    s = ⟨s.name, some owner, some cap, some timeout, some prompt, s.outcomes, none⟩

/-- What validation makes of a profile. -/
structure Profile.Normal (p : Profile) : Prop extends Profile.WellFormed p where
  version_pos : 0 < p.version
  type_identifier : isIdentifier p.type = true
  initial_identifier : isIdentifier p.initialStage = true
  stages_normal : ∀ name s, (name, s) ∈ p.stages → s.Normal
  finishes : ∃ s ∈ p.stages, s.2.terminal.isSome = true

section
variable {name : Text} {s : Stage}

lemma nonemptyString_stripped {value : Option Value} {location t : Text}
    (h : nonemptyString value location = .ok t) : IsStripped t := by
  unfold nonemptyString at h
  split at h
  · next raw =>
    split_ifs at h with hblank
    obtain rfl := Except.ok.inj h
    refine ⟨strip_strip raw, ?_⟩
    unfold isBlank at hblank ⊢
    rw [strip_strip]
    simpa using hblank
  · cases h

lemma validateStage_normal {raw : Value} (hname : isIdentifier name = true)
    (h : validateStage name raw = .ok s) : s.Normal := by
  obtain ⟨-, hwell⟩ := validateStage_wellFormed hname h
  unfold validateStage at h
  split at h
  · split_ifs at h with hterm
    · obtain ⟨-, -, h⟩ := bind_eq_ok.mp h
      obtain ⟨terminal, -, h⟩ := bind_eq_ok.mp h
      split at h
      · cases h
        refine ⟨hwell, ?_, fun hnone => nomatch hnone⟩
        intro t ht
        rw [Option.some.inj ht]
      · cases h
    · obtain ⟨-, -, h⟩ := bind_eq_ok.mp h
      obtain ⟨owner, -, h⟩ := bind_eq_ok.mp h
      split at h
      · cases h
      · next owner _ =>
        obtain ⟨cap, hcap, h⟩ := bind_eq_ok.mp h
        obtain ⟨timeout, htimeout, h⟩ := bind_eq_ok.mp h
        obtain ⟨prompt, hprompt, h⟩ := bind_eq_ok.mp h
        split at h
        · obtain ⟨outcomes, -, h⟩ := bind_eq_ok.mp h
          cases h
          refine ⟨hwell, (fun t ht => nomatch ht), fun _ => ?_⟩
          exact ⟨owner, cap, timeout, prompt, positiveInt_pos hcap, positiveInt_pos htimeout,
            nonemptyString_stripped hprompt, rfl⟩
        · cases h
  · cases h

lemma validateStages_normal {raw : List (Text × Value)} :
    ∀ {stages result : List (Text × Stage)}, validateStages stages raw = .ok result →
      (∀ name s, (name, s) ∈ stages → s.Normal) → ∀ name s, (name, s) ∈ result → s.Normal := by
  induction raw with
  | nil =>
      intro stages result h hok
      obtain rfl := Except.ok.inj h
      exact hok
  | cons p raw ih =>
      obtain ⟨rawName, rawStage⟩ := p
      intro stages result h hok
      obtain ⟨name, hname, h⟩ := bind_eq_ok.mp h
      obtain ⟨-, -, h⟩ := bind_eq_ok.mp h
      obtain ⟨stage, hstage, h⟩ := bind_eq_ok.mp h
      refine ih h ?_
      intro k s hs
      rcases mem_dictSet hs with hs | ⟨rfl, rfl⟩
      · exact hok k s hs
      · exact validateStage_normal (identifier_isIdentifier hname) hstage

/-- What validation returns is normal. -/
theorem validateProfile_normal {data : Value} {p : Profile} (h : validateProfile data = .ok p) :
    p.Normal := by
  have hwell := validateProfile_wellFormed h
  unfold validateProfile at h
  split at h
  · obtain ⟨-, -, h⟩ := bind_eq_ok.mp h
    obtain ⟨version, hversion, h⟩ := bind_eq_ok.mp h
    obtain ⟨type, htype, h⟩ := bind_eq_ok.mp h
    obtain ⟨initialStage, hinitial, h⟩ := bind_eq_ok.mp h
    obtain ⟨maxTransitions, -, h⟩ := bind_eq_ok.mp h
    split at h
    · obtain ⟨stages, hstages, h⟩ := bind_eq_ok.mp h
      obtain ⟨_, hfinishes, h⟩ := bind_eq_ok.mp h
      split at h
      · cases h
      · obtain ⟨-, -, h⟩ := bind_eq_ok.mp h
        split at h
        · split at h
          · cases h
          · obtain ⟨-, -, h⟩ := bind_eq_ok.mp h
            obtain ⟨caps, -, h⟩ := bind_eq_ok.mp h
            obtain rfl := Except.ok.inj h
            exact ⟨hwell, positiveInt_pos hversion, identifier_isIdentifier htype,
              identifier_isIdentifier hinitial, validateStages_normal hstages (by simp),
              List.any_eq_true.mp (require_eq_ok.mp hfinishes)⟩
        · cases h
    · cases h
  · cases h

end

/-! ## Validating a normal profile again -/

section
variable {name : Text} {s : Stage} {p : Profile}

lemma isSpace_of_word {c : CodePoint}
    (h : (isAsciiLetter c || isAsciiDigit c || c == 0x5F || c == 0x2D) = true) :
    isSpace c = false := by
  have hval : c.val = 0x5F ∨ c.val = 0x2D ∨ 0x30 ≤ c.val ∧ c.val ≤ 0x7A := by
    simp only [isAsciiLetter, isAsciiDigit, Bool.or_eq_true, Bool.and_eq_true, decide_eq_true_eq,
      beq_iff_eq] at h
    rcases h with ((h | h) | h) | h
    · omega
    · omega
    · exact .inl (h ▸ rfl)
    · exact .inr (.inl (h ▸ rfl))
  simp only [isSpace, Bool.or_eq_false_iff, Bool.and_eq_false_iff, decide_eq_false_iff_not,
    beq_eq_false_iff_ne]
  omega

/-- An identifier is solid text. -/
lemma isStripped_of_isIdentifier {t : Text} (h : isIdentifier t = true) : IsStripped t := by
  have hchars : ∀ c ∈ t, isSpace c = false := by
    intro c hc
    cases t with
    | nil => cases hc
    | cons a rest =>
        simp only [isIdentifier, Bool.and_eq_true, List.all_eq_true] at h
        rcases List.mem_cons.mp hc with rfl | hc
        · exact isSpace_of_word (by simp [h.1])
        · exact isSpace_of_word (h.2 c hc)
  have hstrip : strip t = t := strip_of_ends (fun c hc => hchars c (List.mem_of_mem_head? hc))
    (fun c hc => hchars c (List.mem_of_mem_getLast? hc))
  refine ⟨hstrip, ?_⟩
  unfold isBlank
  rw [hstrip]
  cases t with
  | nil => cases h
  | cons c t => rfl

lemma nonemptyString_of_stripped {t : Text} (h : IsStripped t) (location : Text) :
    nonemptyString (some (.str t)) location = .ok t := by
  simp [nonemptyString, h.solid, h.strip]

lemma identifier_of {t : Text} (h : isIdentifier t = true) (location : Text) :
    identifier (some (.str t)) location = .ok t := by
  rw [identifier, nonemptyString_of_stripped (isStripped_of_isIdentifier h)]
  simp [h, bind, Except.bind, require, pure, Except.pure]

lemma positiveInt_of {n : ℕ} (h : 0 < n) (location : Text) :
    positiveInt (some (.int n)) location = .ok n := by
  simp [positiveInt, h]

lemma sorted_nil : sorted [] = [] := rfl

lemma exactKeys_of {items : List (Text × Value)} {expected : List Text}
    (h : keysAre items expected = true) (location : Text) :
    exactKeys items expected location = .ok () := by
  rw [keysAre_iff] at h
  have hmissing : expected.filter (· ∉ dictKeys items) = [] := by
    rw [List.filter_eq_nil_iff]
    intro k hk
    simpa using (h k).mpr hk
  have hextra : (dictKeys items).filter (· ∉ expected) = [] := by
    rw [List.filter_eq_nil_iff]
    intro k hk
    simpa using (h k).mp hk
  unfold exactKeys
  rw [hmissing, hextra, sorted_nil]
  rfl

/-- New outcomes are added one by one. -/
lemma validateOutcomes_of {outcomes done : List (Text × Text)}
    (hnodup : (dictKeys (done ++ outcomes)).Nodup)
    (hvalid : ∀ o ∈ outcomes, isIdentifier o.1 = true ∧ IsStripped o.2) :
    validateOutcomes name done (outcomes.map fun o => (o.1, .str o.2)) =
      .ok (done ++ outcomes) := by
  induction outcomes generalizing done with
  | nil => rw [List.append_nil]; rfl
  | cons o outcomes ih =>
      obtain ⟨ho, houtcomes⟩ := List.forall_mem_cons.mp hvalid
      have hnew : o.1 ∉ dictKeys done := by
        intro hmem
        rw [dictKeys, List.map_append, List.nodup_append] at hnodup
        exact hnodup.2.2 o.1 hmem o.1 (by simp) rfl
      have happend : done ++ o :: outcomes = done ++ [(o.1, o.2)] ++ outcomes := by simp
      rw [happend] at hnodup
      rw [List.map_cons, validateOutcomes, identifier_of ho.1, returned_bind,
        nonemptyString_of_stripped ho.2, returned_bind, dictSet_of_notMem hnew, happend,
        ih hnodup houtcomes]

lemma Owner.ofText_text (o : Owner) : Owner.ofText o.text = some o := by
  cases o <;> decide

lemma Terminal.ofText_text (t : Terminal) : Terminal.ofText t.text = some t := by
  cases t <;> decide

lemma Owner.text_stripped (o : Owner) : IsStripped o.text := by
  cases o <;> exact ⟨by decide, by decide⟩

lemma Terminal.text_stripped (t : Terminal) : IsStripped t.text := by
  cases t <;> exact ⟨by decide, by decide⟩

/-- The items of an object of strings, read back. -/
lemma sortedItems_str (outcomes : List (Text × Text)) :
    sortedItems (outcomes.map fun o => (o.1, Value.str o.2)) =
      (sortedDict outcomes).map fun o => (o.1, .str o.2) := by
  rw [sortedItems_eq, List.map_map]
  exact (map_sortedDict (fun _ t => Value.str t) outcomes).symm

/-- The items of a working stage. -/
def workingItems (owner : Owner) (cap timeout : ℕ) (prompt : Text) (outcomes : List (Text × Text)) :
    List (Text × Value) :=
  [("owner", .str owner.text), ("attempt_cap", .int cap), ("timeout", .int timeout),
    ("prompt", .str prompt), ("outcomes", .obj (outcomes.map fun o => (o.1, .str o.2)))]

lemma validateWorkingStage_of {items : List (Text × Value)} {owner : Owner} {cap timeout : ℕ}
    {prompt : Text} {outcomes : List (Text × Text)}
    (hkeys : keysAre items ["owner", "attempt_cap", "timeout", "prompt", "outcomes"] = true)
    (howner : dictGet "owner" items = some (.str owner.text))
    (hcap : dictGet "attempt_cap" items = some (.int cap)) (hcap_pos : 0 < cap)
    (htimeout : dictGet "timeout" items = some (.int timeout)) (htimeout_pos : 0 < timeout)
    (hprompt : dictGet "prompt" items = some (.str prompt)) (hstripped : IsStripped prompt)
    (houtcomes : dictGet "outcomes" items = some (.obj (outcomes.map fun o => (o.1, .str o.2))))
    (hne : outcomes ≠ []) (hnodup : (dictKeys outcomes).Nodup)
    (hvalid : ∀ o ∈ outcomes, isIdentifier o.1 = true ∧ IsStripped o.2) :
    validateWorkingStage name items =
      .ok ⟨name, some owner, some cap, some timeout, some prompt, outcomes, none⟩ := by
  have hloop := @validateOutcomes_of name outcomes [] hnodup hvalid
  rw [validateWorkingStage, exactKeys_of hkeys, returned_bind, howner,
    nonemptyString_of_stripped owner.text_stripped, returned_bind, Owner.ofText_text]
  dsimp only
  rw [hcap, positiveInt_of hcap_pos, returned_bind, htimeout, positiveInt_of htimeout_pos,
    returned_bind, hprompt, nonemptyString_of_stripped hstripped, returned_bind, houtcomes]
  cases outcomes with
  | nil => exact absurd rfl hne
  | cons o rest =>
      show (validateOutcomes name [] ((o :: rest).map fun o => (o.1, .str o.2)) >>= _) = _
      rw [hloop, returned_bind]
      rfl

/-- A normal stage whose targets are identifiers validates again. -/
lemma Stage.Normal.validates (h : s.Normal) (htargets : ∀ o ∈ s.outcomes, IsStripped o.2) :
    validateStage s.name s.toDict.sortKeys = .ok s.sorted := by
  cases hterminal : s.terminal with
  | some terminal =>
      have hshape := h.ended terminal hterminal
      have hdict : s.toDict = .obj [("terminal", .str terminal.text)] := by
        rw [Stage.toDict, hterminal]
      have hnodup : (dictKeys [(("terminal" : Text), Value.str terminal.text)]).Nodup :=
        List.nodup_singleton _
      have hget : dictGet "terminal" (sortedItems [("terminal", .str terminal.text)]) =
          some (.str terminal.text) := by
        rw [dictGet_sortedItems hnodup, dictGet_single]
        rfl
      have hkeys : keysAre (sortedItems [("terminal", .str terminal.text)]) ["terminal"] =
          true := by
        rw [keysAre_sortedItems]
        rfl
      rw [hdict, sortKeys_obj, validateStage, if_pos (by rw [hget]; rfl), validateTerminalStage,
        exactKeys_of hkeys, returned_bind, hget, nonemptyString_of_stripped terminal.text_stripped,
        returned_bind, Terminal.ofText_text, Stage.sorted, hshape]
      rfl
  | none =>
      obtain ⟨owner, cap, timeout, prompt, hcap, htimeout, hprompt, hshape⟩ := h.works hterminal
      have hdict : s.toDict = .obj (workingItems owner cap timeout prompt s.outcomes) := by
        rw [Stage.toDict, hshape]
        rfl
      generalize hitems : workingItems owner cap timeout prompt s.outcomes = items at hdict
      have hkeyed : dictKeys items = ["owner", "attempt_cap", "timeout", "prompt", "outcomes"] := by
        rw [← hitems]
        rfl
      have hnodup : (dictKeys items).Nodup := by
        rw [hkeyed]
        decide
      have hget := dictGet_sortedItems hnodup
      have hkeys : keysAre (sortedItems items)
          ["owner", "attempt_cap", "timeout", "prompt", "outcomes"] = true := by
        rw [keysAre_sortedItems, keysAre_iff, hkeyed]
        exact fun k => Iff.rfl
      have hterm : dictGet "terminal" (sortedItems items) = none := by
        rw [hget, ← hitems]
        rfl
      have hne : sortedDict s.outcomes ≠ [] := by
        intro hnil
        exact (h.working hterminal).1 (List.perm_nil.mp (hnil ▸ (sortedDict_perm s.outcomes).symm))
      have hstage := @validateWorkingStage_of s.name (sortedItems items) owner cap timeout prompt
        (sortedDict s.outcomes) hkeys (by rw [hget, ← hitems]; rfl) (by rw [hget, ← hitems]; rfl)
        hcap (by rw [hget, ← hitems]; rfl) htimeout (by rw [hget, ← hitems]; rfl) hprompt
        (by rw [hget, ← hitems, ← sortedItems_str, ← sortKeys_obj]; rfl) hne
        (nodup_sortedDict h.outcomes_nodup) fun o ho =>
          ⟨h.outcomes_identifier o (mem_sortedDict.mp ho), htargets o (mem_sortedDict.mp ho)⟩
      rw [hdict, sortKeys_obj, validateStage, if_neg (by simp [hterm]), hstage, Stage.sorted,
        hshape]

lemma validateStages_of {stages done : List (Text × Stage)} {f : Stage → Value} {g : Stage → Stage}
    (hnodup : (dictKeys (done ++ stages.map fun s => (s.1, g s.2))).Nodup)
    (hvalid : ∀ s ∈ stages, isIdentifier s.1 = true ∧ validateStage s.1 (f s.2) = .ok (g s.2)) :
    validateStages done (stages.map fun s => (s.1, f s.2)) =
      .ok (done ++ stages.map fun s => (s.1, g s.2)) := by
  induction stages generalizing done with
  | nil =>
      rw [List.map_nil, List.map_nil, List.append_nil]
      rfl
  | cons s stages ih =>
      obtain ⟨hs, hstages⟩ := List.forall_mem_cons.mp hvalid
      have hnew : s.1 ∉ dictKeys done := by
        intro hmem
        rw [dictKeys, List.map_append, List.nodup_append] at hnodup
        exact hnodup.2.2 s.1 hmem s.1 (by simp) rfl
      have hnone : (dictGet s.1 done).isNone = true := by
        rw [Option.isNone_iff_eq_none, ← Option.not_isSome_iff_eq_none, dictGet_isSome]
        exact hnew
      have happend : done ++ (s :: stages).map (fun s => (s.1, g s.2)) =
          done ++ [(s.1, g s.2)] ++ stages.map fun s => (s.1, g s.2) := by simp
      rw [happend] at hnodup ⊢
      rw [List.map_cons, validateStages, identifier_of hs.1, returned_bind, hnone,
        require_true_bind, hs.2, returned_bind, dictSet_of_notMem hnew, ih hnodup hstages]

lemma validateCaps_of {caps : List (Text × ℕ)} (h : ∀ c ∈ caps, 0 < c.2) :
    validateCaps (caps.map fun c => (c.1, .int c.2)) = .ok caps := by
  induction caps with
  | nil => rfl
  | cons c caps ih =>
      obtain ⟨hc, hcaps⟩ := List.forall_mem_cons.mp h
      rw [List.map_cons, validateCaps, positiveInt_of hc, returned_bind, ih hcaps, returned_bind]
      rfl

/-- An object that holds the parts of a well-formed profile validates as it. -/
lemma validateProfile_of {items raw : List (Text × Value)} (h : p.WellFormed)
    (hkeys : keysAre items
      ["version", "type", "initial_stage", "max_transitions", "stages", "edge_caps"] = true)
    (hversion : dictGet "version" items = some (.int p.version)) (hversion_pos : 0 < p.version)
    (htype : dictGet "type" items = some (.str p.type)) (htype_id : isIdentifier p.type = true)
    (hinitial : dictGet "initial_stage" items = some (.str p.initialStage))
    (hinitial_id : isIdentifier p.initialStage = true)
    (hmax : dictGet "max_transitions" items = some (.int p.maxTransitions))
    (hstages : dictGet "stages" items = some (.obj raw)) (hne : raw ≠ [])
    (hraw : validateStages [] raw = .ok p.stages)
    (hfinishes : ∃ s ∈ p.stages, s.2.terminal.isSome = true)
    (hcaps : dictGet "edge_caps" items = some (.obj (p.edgeCaps.map fun c => (c.1, .int c.2)))) :
    validateProfile (.obj items) = .ok p := by
  obtain ⟨initial, hget, hworks⟩ := h.initial
  have hany : (p.stages.any fun s => s.2.terminal.isSome) = true := List.any_eq_true.mpr hfinishes
  have hmissing : missingTarget p.stages = none := by
    unfold missingTarget
    rw [List.find?_eq_none]
    intro e he
    obtain ⟨⟨name, s⟩, hs, ho⟩ := List.mem_flatMap.mp he
    obtain ⟨⟨o, t⟩, houtcome, rfl⟩ := List.mem_map.mp ho
    obtain ⟨s', hs'⟩ := h.targets name s hs o t houtcome
    simp [hs']
  have hdict : dictKeys (p.edgeCaps.map fun c => (c.1, Value.int c.2)) = dictKeys p.edgeCaps := by
    simp [dictKeys]
  have hmissingCaps : ((p.stages.flatMap fun s => s.2.outcomes.map fun o =>
      Profile.edgeId s.2.name o.1).filter
        (· ∉ dictKeys (p.edgeCaps.map fun c => (c.1, Value.int c.2)))) = [] := by
    rw [List.filter_eq_nil_iff]
    intro e he
    rw [hdict]
    simpa using (h.caps_cover e).mpr he
  have hextraCaps : ((dictKeys (p.edgeCaps.map fun c => (c.1, Value.int c.2))).filter
      (· ∉ p.stages.flatMap fun s => s.2.outcomes.map fun o =>
        Profile.edgeId s.2.name o.1)) = [] := by
    rw [List.filter_eq_nil_iff]
    intro e he
    rw [hdict] at he
    have hedge : e ∈ p.edges := (h.caps_cover e).mp he
    rw [decide_eq_true_eq, not_not]
    exact hedge
  have hcapsLoop := validateCaps_of fun c hc => h.caps_pos c.1 c.2 hc
  rw [validateProfile, exactKeys_of hkeys, returned_bind, hversion, positiveInt_of hversion_pos,
    returned_bind, htype, identifier_of htype_id, returned_bind, hinitial,
    identifier_of hinitial_id, returned_bind, hmax, positiveInt_of h.max_pos, returned_bind,
    hstages]
  cases raw with
  | nil => exact absurd rfl hne
  | cons s rest =>
      dsimp only
      rw [hraw, returned_bind, hany, require_true_bind, hget]
      dsimp only
      rw [hworks, Option.isNone_none, require_true_bind, hcaps]
      dsimp only
      rw [hmissing]
      dsimp only
      rw [hmissingCaps, hextraCaps, sorted_nil, hcapsLoop, returned_bind,
        dictOf_of_nodup h.caps_nodup]
      rfl

end

/-! ## The snapshot of a normal profile -/

section
variable {s : Stage} {p : Profile}

lemma Stage.WellFormed.sorted (h : s.WellFormed) : s.sorted.WellFormed where
  identifier := h.identifier
  outcomes_identifier o ho := h.outcomes_identifier o (mem_sortedDict.mp ho)
  terminal_outcomes ht := by
    rw [Stage.sorted, h.terminal_outcomes ht]
    rfl
  working ht := by
    obtain ⟨hne, howner, hcap⟩ := h.working ht
    refine ⟨fun hnil => hne ?_, howner, hcap⟩
    exact List.perm_nil.mp (hnil ▸ (sortedDict_perm s.outcomes).symm)
  outcomes_nodup := nodup_sortedDict h.outcomes_nodup

lemma mem_sorted_stages {name : Text} :
    (name, s) ∈ p.sorted.stages ↔ ∃ s₀, (name, s₀) ∈ p.stages ∧ s = s₀.sorted := by
  show (name, s) ∈ sortedDict (p.stages.map fun s => (s.1, s.2.sorted)) ↔ _
  rw [mem_sortedDict, List.mem_map]
  constructor
  · rintro ⟨⟨name', s₀⟩, hs, heq⟩
    obtain ⟨rfl, rfl⟩ := Prod.mk.inj heq
    exact ⟨s₀, hs, rfl⟩
  · rintro ⟨s₀, hs, rfl⟩
    exact ⟨(name, s₀), hs, rfl⟩

lemma dictGet_map_sorted (name : Text) (stages : List (Text × Stage)) :
    dictGet name (stages.map fun s => (s.1, s.2.sorted)) =
      (dictGet name stages).map Stage.sorted := by
  induction stages with
  | nil => rfl
  | cons s stages ih =>
      obtain ⟨k, s⟩ := s
      rw [List.map_cons, dictGet_cons, dictGet_cons, ih]
      split_ifs <;> rfl

lemma dictKeys_map_sorted (stages : List (Text × Stage)) :
    dictKeys (stages.map fun s => (s.1, s.2.sorted)) = dictKeys stages := by
  simp [dictKeys]

/-- The stage a sorted profile has under a name. -/
lemma Profile.WellFormed.dictGet_sorted (h : p.WellFormed) (name : Text) :
    dictGet name p.sorted.stages = (dictGet name p.stages).map Stage.sorted := by
  have hnodup : (dictKeys (p.stages.map fun s => (s.1, s.2.sorted))).Nodup := by
    rw [dictKeys_map_sorted]
    exact h.stages_nodup
  rw [← dictGet_map_sorted]
  exact dictGet_sortedDict hnodup name

lemma mem_edges_sorted {e : Text} : e ∈ p.sorted.edges ↔ e ∈ p.edges := by
  unfold Profile.edges
  simp only [List.mem_flatMap, List.mem_map]
  constructor
  · rintro ⟨⟨name, s⟩, hs, o, ho, rfl⟩
    obtain ⟨s₀, hs₀, rfl⟩ := mem_sorted_stages.mp hs
    exact ⟨(name, s₀), hs₀, o, mem_sortedDict.mp ho, rfl⟩
  · rintro ⟨⟨name, s⟩, hs, o, ho, rfl⟩
    exact ⟨(name, s.sorted), mem_sorted_stages.mpr ⟨s, hs, rfl⟩, o, mem_sortedDict.mpr ho, rfl⟩

lemma Profile.WellFormed.sorted (h : p.WellFormed) : p.sorted.WellFormed where
  stages_nodup := by
    refine nodup_sortedDict ?_
    rw [dictKeys_map_sorted]
    exact h.stages_nodup
  named name s hs := by
    obtain ⟨s₀, hs₀, rfl⟩ := mem_sorted_stages.mp hs
    obtain ⟨hname, hwell⟩ := h.named name s₀ hs₀
    exact ⟨hname, hwell.sorted⟩
  initial := by
    obtain ⟨s, hget, hworks⟩ := h.initial
    refine ⟨s.sorted, ?_, hworks⟩
    show dictGet p.initialStage p.sorted.stages = _
    rw [h.dictGet_sorted, hget]
    rfl
  targets name s hs o t ho := by
    obtain ⟨s₀, hs₀, rfl⟩ := mem_sorted_stages.mp hs
    obtain ⟨s', hs'⟩ := h.targets name s₀ hs₀ o t (mem_sortedDict.mp ho)
    exact ⟨s'.sorted, by rw [h.dictGet_sorted, hs']; rfl⟩
  caps_nodup := nodup_sortedDict h.caps_nodup
  caps_cover e := by
    rw [mem_edges_sorted, ← h.caps_cover e]
    exact mem_dictKeys_sortedDict
  caps_pos e c hc := h.caps_pos e c (mem_sortedDict.mp hc)
  max_pos := h.max_pos

/-- The items of the snapshot. -/
def Profile.items (p : Profile) : List (Text × Value) :=
  [("version", .int p.version), ("type", .str p.type), ("initial_stage", .str p.initialStage),
    ("max_transitions", .int p.maxTransitions),
    ("stages", .obj (p.stages.map fun s => (s.1, s.2.toDict))),
    ("edge_caps", .obj (p.edgeCaps.map fun c => (c.1, .int c.2)))]

lemma Profile.dictKeys_items (p : Profile) : dictKeys p.items =
    ["version", "type", "initial_stage", "max_transitions", "stages", "edge_caps"] := rfl

lemma Profile.nodup_items (p : Profile) : (dictKeys p.items).Nodup := by
  rw [p.dictKeys_items]
  decide

/-- The stages of a snapshot, read back. -/
lemma sortedItems_stages (stages : List (Text × Stage)) :
    sortedItems (stages.map fun s => (s.1, s.2.toDict)) =
      (sortedDict stages).map fun s => (s.1, s.2.toDict.sortKeys) := by
  rw [sortedItems_eq, List.map_map]
  exact (map_sortedDict (fun _ (s : Stage) => s.toDict.sortKeys) stages).symm

lemma sortedItems_caps (caps : List (Text × ℕ)) :
    sortedItems (caps.map fun c => (c.1, Value.int c.2)) =
      (sortedDict caps).map fun c => (c.1, .int c.2) := by
  rw [sortedItems_eq, List.map_map]
  exact (map_sortedDict (fun _ n => Value.int (n : ℕ)) caps).symm

/-- What is read back of the snapshot of a normal profile validates as the profile, sorted. -/
theorem Profile.Normal.validates (h : p.Normal) :
    validateProfile p.toDict.sortKeys = .ok p.sorted := by
  have hget := dictGet_sortedItems p.nodup_items
  have hstages : p.sorted.stages = (sortedDict p.stages).map fun s => (s.1, s.2.sorted) :=
    (map_sortedDict (fun _ (s : Stage) => s.sorted) p.stages).symm
  have hnodup : (dictKeys ([] ++ (sortedDict p.stages).map fun s => (s.1, s.2.sorted))).Nodup := by
    rw [List.nil_append, dictKeys_map_sorted]
    exact nodup_sortedDict h.stages_nodup
  have hvalid : ∀ s ∈ sortedDict p.stages, isIdentifier s.1 = true ∧
      validateStage s.1 s.2.toDict.sortKeys = .ok s.2.sorted := by
    rintro ⟨name, s⟩ hs
    have hs := mem_sortedDict.mp hs
    obtain ⟨rfl, hwell⟩ := h.named name s hs
    refine ⟨hwell.identifier, (h.stages_normal s.name s hs).validates ?_⟩
    rintro ⟨o, t⟩ ho
    obtain ⟨target, htarget⟩ := h.targets s.name s hs o t ho
    obtain ⟨rfl, hwell'⟩ := h.named t target (mem_of_dictGet htarget)
    exact isStripped_of_isIdentifier hwell'.identifier
  have hraw := @validateStages_of (sortedDict p.stages) [] (fun s => s.toDict.sortKeys) Stage.sorted
    hnodup hvalid
  rw [List.nil_append, ← hstages] at hraw
  have hne : ((sortedDict p.stages).map fun s => (s.1, s.2.toDict.sortKeys)) ≠ [] := by
    obtain ⟨s, hs, -⟩ := h.finishes
    exact List.ne_nil_of_mem (List.mem_map_of_mem (mem_sortedDict.mpr hs))
  have hkeys : keysAre (sortedItems p.items)
      ["version", "type", "initial_stage", "max_transitions", "stages", "edge_caps"] = true := by
    rw [keysAre_sortedItems, keysAre_iff, p.dictKeys_items]
    exact fun k => Iff.rfl
  have hfinishes : ∃ s ∈ p.sorted.stages, s.2.terminal.isSome = true := by
    obtain ⟨⟨name, s⟩, hs, hterminal⟩ := h.finishes
    exact ⟨(name, s.sorted), mem_sorted_stages.mpr ⟨s, hs, rfl⟩, hterminal⟩
  have hdict : p.toDict.sortKeys = .obj (sortedItems p.items) := sortKeys_obj p.items
  rw [hdict]
  refine validateProfile_of h.toWellFormed.sorted hkeys ?_ h.version_pos ?_ h.type_identifier ?_
    h.initial_identifier ?_ ?_ hne hraw hfinishes ?_
  · rw [hget]; rfl
  · rw [hget]; rfl
  · rw [hget]; rfl
  · rw [hget]; rfl
  · rw [hget, ← sortedItems_stages, ← sortKeys_obj]; rfl
  · rw [hget]
    show _ = some (Value.obj ((sortedDict p.edgeCaps).map _))
    rw [← sortedItems_caps, ← sortKeys_obj]; rfl

/-! ## Its bytes -/

lemma Stage.toDict_sorted (s : Stage) : s.sorted.toDict.sortKeys = s.toDict.sortKeys := by
  cases hterminal : s.terminal with
  | some t =>
      have hsorted : s.sorted.terminal = some t := hterminal
      rw [Stage.toDict, Stage.toDict, hsorted, hterminal]
  | none =>
      have hsorted : s.sorted.terminal = none := hterminal
      have houtcomes : (Value.obj (s.sorted.outcomes.map fun o => (o.1, .str o.2))).sortKeys =
          (Value.obj (s.outcomes.map fun o => (o.1, .str o.2))).sortKeys := by
        rw [sortKeys_obj, sortKeys_obj, sortedItems_str, sortedItems_str]
        show Value.obj ((sortedDict (sortedDict s.outcomes)).map _) = _
        rw [sortedDict_sortedDict]
      rw [Stage.toDict, Stage.toDict, hsorted, hterminal, sortKeys_obj, sortKeys_obj,
        sortedItems_eq, sortedItems_eq]
      simp only [List.map_cons, List.map_nil, houtcomes]
      rfl

/-- The order of a profile's items does not show in its snapshot. -/
lemma Profile.toDict_sorted (p : Profile) : p.sorted.toDict.sortKeys = p.toDict.sortKeys := by
  have hstages : (Value.obj (p.sorted.stages.map fun s => (s.1, s.2.toDict))).sortKeys =
      (Value.obj (p.stages.map fun s => (s.1, s.2.toDict))).sortKeys := by
    have hsorted : p.sorted.stages = (sortedDict p.stages).map fun s => (s.1, s.2.sorted) :=
      (map_sortedDict (fun _ (s : Stage) => s.sorted) p.stages).symm
    have hidem : sortedDict p.sorted.stages = p.sorted.stages := sortedDict_sortedDict _
    rw [sortKeys_obj, sortKeys_obj, sortedItems_stages, sortedItems_stages, hidem, hsorted,
      List.map_map]
    congr 1
    exact List.map_congr_left fun s _ => by simp only [Function.comp_apply, s.2.toDict_sorted]
  have hcaps : (Value.obj (p.sorted.edgeCaps.map fun c => (c.1, .int c.2))).sortKeys =
      (Value.obj (p.edgeCaps.map fun c => (c.1, .int c.2))).sortKeys := by
    have hidem : sortedDict p.sorted.edgeCaps = p.sorted.edgeCaps := sortedDict_sortedDict _
    rw [sortKeys_obj, sortKeys_obj, sortedItems_caps, sortedItems_caps, hidem]
    rfl
  rw [Profile.toDict, Profile.toDict, sortKeys_obj, sortKeys_obj, sortedItems_eq, sortedItems_eq]
  simp only [List.map_cons, List.map_nil, hstages, hcaps]
  rfl

lemma Stage.WellFormed.shallow (h : s.WellFormed) : Shallow 2 s.toDict := by
  have hstr : ∀ t : Option Text, Shallow 1 (Trajectory.optText t) := by
    intro t
    cases t with
    | none => exact shallow_null 1
    | some t => exact shallow_str 1 t
  have hnat : ∀ n : Option ℕ, Shallow 1 (optNat n) := by
    intro n
    cases n with
    | none => exact shallow_null 1
    | some n => exact shallow_int 1 n
  have houtcomes : Shallow 1 (.obj (s.outcomes.map fun o => (o.1, .str o.2))) := by
    refine shallow_obj ?_ ?_
    · have hkeys : dictKeys (s.outcomes.map fun o => (o.1, Value.str o.2)) =
          dictKeys s.outcomes := by
        simp [dictKeys]
      rw [hkeys]
      exact h.outcomes_nodup
    · intro q hq
      obtain ⟨o, -, rfl⟩ := List.mem_map.mp hq
      exact shallow_str 0 o.2
  unfold Stage.toDict
  split
  · next t _ =>
    refine shallow_obj (List.nodup_singleton _) ?_
    intro q hq
    rw [List.mem_singleton.mp hq]
    exact shallow_str 1 _
  · refine shallow_obj ?_ ?_
    · show (["owner", "attempt_cap", "timeout", "prompt", "outcomes"] : List Text).Nodup
      decide
    · intro q hq
      simp only [List.mem_cons, List.not_mem_nil, or_false] at hq
      rcases hq with rfl | rfl | rfl | rfl | rfl
      · exact hstr _
      · exact hnat _
      · exact hnat _
      · exact hstr _
      · exact houtcomes

/-- A snapshot is four containers deep. -/
lemma Profile.WellFormed.shallow (h : p.WellFormed) : Shallow 4 p.toDict := by
  have hstages : Shallow 3 (.obj (p.stages.map fun s => (s.1, s.2.toDict))) := by
    refine shallow_obj ?_ ?_
    · have hkeys : dictKeys (p.stages.map fun s => (s.1, s.2.toDict)) = dictKeys p.stages := by
        simp [dictKeys]
      rw [hkeys]
      exact h.stages_nodup
    · intro q hq
      obtain ⟨⟨name, s⟩, hs, rfl⟩ := List.mem_map.mp hq
      exact (h.named name s hs).2.shallow
  have hcaps : Shallow 3 (.obj (p.edgeCaps.map fun c => (c.1, .int c.2))) := by
    refine shallow_obj ?_ ?_
    · have hkeys : dictKeys (p.edgeCaps.map fun c => (c.1, Value.int c.2)) =
          dictKeys p.edgeCaps := by
        simp [dictKeys]
      rw [hkeys]
      exact h.caps_nodup
    · intro q hq
      obtain ⟨c, -, rfl⟩ := List.mem_map.mp hq
      exact shallow_int 2 _
  refine shallow_obj p.nodup_items ?_
  intro q hq
  simp only [List.mem_cons, List.not_mem_nil, or_false] at hq
  rcases hq with rfl | rfl | rfl | rfl | rfl | rfl
  · exact shallow_int 3 _
  · exact shallow_str 3 _
  · exact shallow_str 3 _
  · exact shallow_int 3 _
  · exact hstages
  · exact hcaps

/-- The bytes of a snapshot. -/
lemma Profile.WellFormed.canonicalJson {rt : Runtime} (h : p.WellFormed)
    (hroom : 4 ≤ rt.dumpsDepth) (hshort : p.toDict.shortInts = true)
    (hclean : p.toDict.encodable = true) :
    ∃ t bytes, dumpsPadded [] rt.dumpsDepth rt.floatRepr p.toDict = .ok t ∧ encoded t = .ok bytes ∧
      Kanban.canonicalJson rt p.toDict = .ok bytes := by
  have hrefusal : p.toDict.sortKeys.lenientRefusal rt.dumpsDepth = none := by
    refine lenientRefusal_eq_none _ ?_ (shortInts_sortKeys _ hshort)
    rw [depth_sortKeys]
    exact h.shallow.depth.trans hroom
  have htext : dumpsPadded [] rt.dumpsDepth rt.floatRepr p.toDict =
      .ok (p.toDict.sortKeys.written [] rt.floatRepr) := by
    rw [dumpsPadded, hrefusal]
  have hencodable : Py.Encodable (p.toDict.sortKeys.written [] rt.floatRepr) :=
    encodable_written encodable_nil rt.floatRepr_encodable _ (encodable_sortKeys _ hclean)
  have hbytes : encoded (p.toDict.sortKeys.written [] rt.floatRepr) =
      .ok ((p.toDict.sortKeys.written [] rt.floatRepr).flatMap encodeChar) := by
    rw [encoded, encodeStrict, if_pos hencodable]
  refine ⟨_, _, htext, hbytes, ?_⟩
  rw [Kanban.canonicalJson, Kanban.canonicalText, htext]
  exact hbytes

/-- A snapshot reads back as its dictionary, with the keys in order. -/
lemma Profile.WellFormed.loadsBytes {rt : Runtime} {t : Text} {bytes : Bytes} (h : p.WellFormed)
    (hroom : 4 ≤ rt.loadsDepth) (ht : dumpsPadded [] rt.dumpsDepth rt.floatRepr p.toDict = .ok t)
    (hbytes : encoded t = .ok bytes) : rt.loadsBytes bytes = .ok p.toDict.sortKeys := by
  rw [Runtime.loadsBytes, encoded_ok hbytes]
  dsimp only
  rw [Runtime.loads, h.shallow.loads hroom rfl ht]

end

end AgentOrch
