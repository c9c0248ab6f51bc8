import AgentOrch.Construction.Exceptions
import Mathlib.Data.List.Dedup

/-!
# Profiles

A profile is the frozen workflow graph of a task: stages with their outcomes, each outcome
leading to a stage, and a cap for every edge.  `validateProfile` is the only way in, and
`FrozenProfile` keeps what it establishes: the initial stage does work, every outcome leads to
a stage of the profile, and the caps cover the edges exactly and are positive.
-/

namespace AgentOrch

open Py Json

inductive Owner
  | claude
  | codex
  deriving DecidableEq

/-- The statuses a terminal stage ends a task in. -/
inductive Terminal
  | done
  | failed
  deriving DecidableEq

def Owner.ofText (t : Text) : Option Owner :=
  if t = ("claude" : Text) then some .claude
  else if t = ("codex" : Text) then some .codex
  else none

def Terminal.ofText (t : Text) : Option Terminal :=
  if t = ("done" : Text) then some .done
  else if t = ("failed" : Text) then some .failed
  else none

structure Stage where
  name : Text
  owner : Option Owner
  attemptCap : Option ℕ
  timeout : Option ℕ
  prompt : Option Text
  outcomes : List (Text × Text)
  terminal : Option Terminal
  deriving DecidableEq

structure Profile where
  version : ℕ
  type : Text
  initialStage : Text
  maxTransitions : ℕ
  stages : List (Text × Stage)
  edgeCaps : List (Text × ℕ)
  deriving DecidableEq

namespace Profile

def stage (p : Profile) (name : Text) : Except Exc Stage :=
  match dictGet name p.stages with
  | some s => .ok s
  | none => .error (.profileError ("unknown stage in snapshot: " ++ name))

def edgeId (stage outcome : Text) : Text := stage ++ "." ++ outcome

/-- Every edge of the graph, by its identity. -/
def edges (p : Profile) : List Text :=
  p.stages.flatMap fun s => s.2.outcomes.map fun o => edgeId s.2.name o.1

end Profile

/-! ## Validation -/

def exactKeys (items : List (Text × Value)) (expected : List Text) (location : Text) :
    Except Exc Unit :=
  let missing := sorted (expected.filter (· ∉ dictKeys items))
  let extra := sorted ((dictKeys items).filter (· ∉ expected))
  let parts : List Text :=
    (if missing = [] then [] else ["missing " ++ join ", " missing]) ++
      (if extra = [] then [] else ["unknown " ++ join ", " extra])
  require (missing = [] ∧ extra = []) (.profileError (location ++ ": " ++ join "; " parts))

def positiveInt (value : Option Value) (location : Text) : Except Exc ℕ :=
  match value with
  | some (.int n) =>
    if 0 < n then .ok n.toNat
    else .error (.profileError (location ++ " must be a positive integer"))
  | _ => .error (.profileError (location ++ " must be a positive integer"))

def nonemptyString (value : Option Value) (location : Text) : Except Exc Text :=
  match value with
  | some (.str s) =>
    if isBlank s then .error (.profileError (location ++ " must be a non-empty string"))
    else .ok (strip s)
  | _ => .error (.profileError (location ++ " must be a non-empty string"))

/-- `IDENTIFIER_RE.fullmatch`, the pattern `^[A-Za-z][A-Za-z0-9_-]*$`. -/
def isIdentifier : Text → Bool
  | [] => false
  | c :: rest => isAsciiLetter c &&
      rest.all fun c => isAsciiLetter c || isAsciiDigit c || c == 0x5F || c == 0x2D

def identifier (value : Option Value) (location : Text) : Except Exc Text := do
  let text ← nonemptyString value location
  require (isIdentifier text) (.profileError (location ++ " must match ^[A-Za-z][A-Za-z0-9_-]*$"))
  return text

/-- The loop over the items of one `outcomes` mapping. -/
def validateOutcomes (name : Text) :
    List (Text × Text) → List (Text × Value) → Except Exc (List (Text × Text))
  | outcomes, [] => .ok outcomes
  | outcomes, (rawOutcome, rawTarget) :: rest => do
    let outcome ← identifier (some (.str rawOutcome)) ("stage " ++ name ++ " outcome")
    let target ← nonemptyString (some rawTarget) ("stage " ++ name ++ "." ++ outcome ++ " target")
    validateOutcomes name (dictSet outcome target outcomes) rest

def validateTerminalStage (name : Text) (items : List (Text × Value)) : Except Exc Stage := do
  exactKeys items ["terminal"] ("stage " ++ name)
  let terminal ← nonemptyString (dictGet "terminal" items) ("stage " ++ name ++ ".terminal")
  match Terminal.ofText terminal with
  | some t => return ⟨name, none, none, none, none, [], some t⟩
  | none => throw (.profileError
      ("stage " ++ name ++ ".terminal must be one of ['done', 'failed']"))

def validateWorkingStage (name : Text) (items : List (Text × Value)) : Except Exc Stage := do
  exactKeys items ["owner", "attempt_cap", "timeout", "prompt", "outcomes"] ("stage " ++ name)
  let owner ← nonemptyString (dictGet "owner" items) ("stage " ++ name ++ ".owner")
  match Owner.ofText owner with
  | none => throw (.profileError ("stage " ++ name ++ ".owner must be one of ['claude', 'codex']"))
  | some owner =>
    let attemptCap ← positiveInt (dictGet "attempt_cap" items) ("stage " ++ name ++ ".attempt_cap")
    let timeout ← positiveInt (dictGet "timeout" items) ("stage " ++ name ++ ".timeout")
    let prompt ← nonemptyString (dictGet "prompt" items) ("stage " ++ name ++ ".prompt")
    match dictGet "outcomes" items with
    | some (.obj (o :: rest)) =>
      let outcomes ← validateOutcomes name [] (o :: rest)
      return ⟨name, some owner, some attemptCap, some timeout, some prompt, outcomes, none⟩
    | _ => throw (.profileError ("stage " ++ name ++ ".outcomes must be a non-empty mapping"))

def validateStage (name : Text) (raw : Value) : Except Exc Stage :=
  match raw with
  | .obj items =>
    if (dictGet "terminal" items).isSome then validateTerminalStage name items
    else validateWorkingStage name items
  | _ => .error (.profileError ("stage " ++ name ++ " must be a mapping"))

/-- The loop over the items of the `stages` mapping. -/
def validateStages :
    List (Text × Stage) → List (Text × Value) → Except Exc (List (Text × Stage))
  | stages, [] => .ok stages
  | stages, (rawName, rawStage) :: rest => do
    let name ← identifier (some (.str rawName)) "stage name"
    require (dictGet name stages).isNone (.profileError ("duplicate stage name: " ++ name))
    let stage ← validateStage name rawStage
    validateStages (dictSet name stage stages) rest

/-- The first edge whose target is no stage. -/
def missingTarget (stages : List (Text × Stage)) : Option (Text × Text × Text) :=
  (stages.flatMap fun s => s.2.outcomes.map fun o => (s.2.name, o.1, o.2)).find?
    fun e => (dictGet e.2.2 stages).isNone

/-- The loop over `raw_caps.items()`. -/
def validateCaps : List (Text × Value) → Except Exc (List (Text × ℕ))
  | [] => .ok []
  | (edge, value) :: rest => do
    let cap ← positiveInt (some value) ("edge cap " ++ edge)
    let caps ← validateCaps rest
    return (edge, cap) :: caps

def validateProfile (data : Value) : Except Exc Profile :=
  match data with
  | .obj items => do
    exactKeys items ["version", "type", "initial_stage", "max_transitions", "stages", "edge_caps"]
      "profile"
    let version ← positiveInt (dictGet "version" items) "version"
    let type ← identifier (dictGet "type" items) "type"
    let initialStage ← identifier (dictGet "initial_stage" items) "initial_stage"
    let maxTransitions ← positiveInt (dictGet "max_transitions" items) "max_transitions"
    match dictGet "stages" items with
    | some (.obj (s :: rest)) =>
      let stages ← validateStages [] (s :: rest)
      require (stages.any fun s => s.2.terminal.isSome)
        (.profileError "profile must define at least one terminal stage")
      match dictGet initialStage stages with
      | none => throw (.profileError ("initial_stage does not exist: " ++ initialStage))
      | some initial =>
        require initial.terminal.isNone (.profileError "initial_stage cannot be terminal")
        match dictGet "edge_caps" items with
        | some (.obj rawCaps) =>
          match missingTarget stages with
          | some (name, outcome, target) => throw (.profileError
              ("edge " ++ name ++ "." ++ outcome ++ " targets missing stage: " ++ target))
          | none =>
            let expected := stages.flatMap fun s => s.2.outcomes.map fun o =>
              Profile.edgeId s.2.name o.1
            let missing := sorted (expected.filter (· ∉ dictKeys rawCaps))
            let extra := sorted ((dictKeys rawCaps).filter (· ∉ expected))
            let details : List Text :=
              (if missing = [] then [] else ["missing caps: " ++ join ", " missing]) ++
                (if extra = [] then [] else ["unknown caps: " ++ join ", " extra])
            require (missing = [] ∧ extra = []) (.profileError
              ("edge_caps must cover every edge exactly (" ++ join "; " details ++ ")"))
            let caps ← validateCaps rawCaps
            return ⟨version, type, initialStage, maxTransitions, stages, dictOf caps⟩
        | _ => throw (.profileError "edge_caps must be a mapping")
    | _ => throw (.profileError "stages must be a non-empty mapping")
  | _ => .error (.profileError "profile root must be a mapping")

/-! ## What validation establishes -/

/-- A stage as `validateStage` builds it. -/
structure Stage.WellFormed (s : Stage) : Prop where
  identifier : isIdentifier s.name = true
  outcomes_identifier : ∀ o ∈ s.outcomes, isIdentifier o.1 = true
  terminal_outcomes : s.terminal ≠ none → s.outcomes = []
  working : s.terminal = none →
    s.outcomes ≠ [] ∧ s.owner.isSome = true ∧ ∃ cap, s.attemptCap = some cap ∧ 0 < cap
  outcomes_nodup : (dictKeys s.outcomes).Nodup

/-- What the rest of the engine may assume of a profile. -/
structure Profile.WellFormed (p : Profile) : Prop where
  stages_nodup : (dictKeys p.stages).Nodup
  named : ∀ name s, (name, s) ∈ p.stages → s.name = name ∧ s.WellFormed
  initial : ∃ s, dictGet p.initialStage p.stages = some s ∧ s.terminal = none
  targets : ∀ name s, (name, s) ∈ p.stages → ∀ o t, (o, t) ∈ s.outcomes →
    ∃ s', dictGet t p.stages = some s'
  caps_nodup : (dictKeys p.edgeCaps).Nodup
  caps_cover : ∀ e, e ∈ dictKeys p.edgeCaps ↔ e ∈ p.edges
  caps_pos : ∀ e c, (e, c) ∈ p.edgeCaps → 0 < c
  max_pos : 0 < p.maxTransitions

/-- A profile as it is frozen beside a task. -/
structure FrozenProfile where
  profile : Profile
  wellFormed : profile.WellFormed

lemma positiveInt_pos {value : Option Value} {location : Text} {n : ℕ}
    (h : positiveInt value location = .ok n) : 0 < n := by
  unfold positiveInt at h
  split at h
  · split_ifs at h with hpos
    · cases h
      omega
  · cases h

lemma identifier_isIdentifier {value : Option Value} {location t : Text}
    (h : identifier value location = .ok t) : isIdentifier t = true := by
  obtain ⟨s, -, h⟩ := bind_eq_ok.mp h
  obtain ⟨_, hreq, h⟩ := bind_eq_ok.mp h
  cases h
  exact require_eq_ok.mp hreq

lemma validateOutcomes_spec {name : Text} {raw : List (Text × Value)} :
    ∀ {outcomes result : List (Text × Text)}, validateOutcomes name outcomes raw = .ok result →
      (dictKeys outcomes).Nodup → (∀ o ∈ outcomes, isIdentifier o.1 = true) →
      (dictKeys result).Nodup ∧ (∀ o ∈ result, isIdentifier o.1 = true) ∧
        (outcomes ≠ [] ∨ raw ≠ [] → result ≠ []) := by
  induction raw with
  | nil =>
      intro outcomes result h hnodup hid
      cases h
      exact ⟨hnodup, hid, by simp⟩
  | cons p raw ih =>
      obtain ⟨rawOutcome, rawTarget⟩ := p
      intro outcomes result h hnodup hid
      obtain ⟨outcome, houtcome, h⟩ := bind_eq_ok.mp h
      obtain ⟨target, -, h⟩ := bind_eq_ok.mp h
      obtain ⟨h1, h2, h3⟩ := ih h (nodup_dictSet hnodup) (by
        rintro ⟨o, t⟩ ho
        rcases mem_dictSet ho with ho | ⟨rfl, -⟩
        · exact hid _ ho
        · exact identifier_isIdentifier houtcome)
      refine ⟨h1, h2, fun _ => h3 (.inl ?_)⟩
      cases outcomes with
      | nil => simp [dictSet]
      | cons o rest => simp only [dictSet]; split_ifs <;> simp

lemma validateStage_wellFormed {name : Text} {raw : Value} {s : Stage}
    (hname : isIdentifier name = true) (h : validateStage name raw = .ok s) :
    s.name = name ∧ s.WellFormed := by
  unfold validateStage at h
  split at h
  · split_ifs at h with hterm
    · obtain ⟨-, -, h⟩ := bind_eq_ok.mp h
      obtain ⟨t, -, h⟩ := bind_eq_ok.mp h
      split at h
      · cases h
        exact ⟨rfl, hname, by simp, fun _ => rfl, by simp, List.nodup_nil⟩
      · cases h
    · obtain ⟨-, -, h⟩ := bind_eq_ok.mp h
      obtain ⟨owner, -, h⟩ := bind_eq_ok.mp h
      split at h
      · cases h
      · obtain ⟨cap, hcap, h⟩ := bind_eq_ok.mp h
        obtain ⟨timeout, -, h⟩ := bind_eq_ok.mp h
        obtain ⟨prompt, -, h⟩ := bind_eq_ok.mp h
        split at h
        · obtain ⟨outcomes, houtcomes, h⟩ := bind_eq_ok.mp h
          cases h
          obtain ⟨h1, h2, h3⟩ := validateOutcomes_spec houtcomes List.nodup_nil (by simp)
          exact ⟨rfl, hname, h2, by simp,
            fun _ => ⟨h3 (.inr (by simp)), rfl, cap, rfl, positiveInt_pos hcap⟩, h1⟩
        · cases h
  · cases h

lemma validateStages_spec {raw : List (Text × Value)} :
    ∀ {stages result : List (Text × Stage)}, validateStages stages raw = .ok result →
      (dictKeys stages).Nodup →
      (∀ name s, (name, s) ∈ stages → s.name = name ∧ s.WellFormed) →
      (dictKeys result).Nodup ∧ ∀ name s, (name, s) ∈ result → s.name = name ∧ s.WellFormed := by
  induction raw with
  | nil =>
      intro stages result h hnodup hok
      cases h
      exact ⟨hnodup, hok⟩
  | cons p raw ih =>
      obtain ⟨rawName, rawStage⟩ := p
      intro stages result h hnodup hok
      obtain ⟨name, hname, h⟩ := bind_eq_ok.mp h
      obtain ⟨-, -, h⟩ := bind_eq_ok.mp h
      obtain ⟨stage, hstage, h⟩ := bind_eq_ok.mp h
      refine ih h (nodup_dictSet hnodup) ?_
      intro k s hs
      rcases mem_dictSet hs with hs | ⟨rfl, rfl⟩
      · exact hok k s hs
      · exact validateStage_wellFormed (identifier_isIdentifier hname) hstage

lemma validateCaps_spec : ∀ {raw : List (Text × Value)} {caps : List (Text × ℕ)},
    validateCaps raw = .ok caps → dictKeys caps = dictKeys raw ∧ ∀ e c, (e, c) ∈ caps → 0 < c
  | [], caps, h => by
      cases h
      exact ⟨rfl, by simp⟩
  | (edge, value) :: rest, caps, h => by
      obtain ⟨cap, hcap, h⟩ := bind_eq_ok.mp h
      obtain ⟨caps', hcaps, h⟩ := bind_eq_ok.mp h
      cases h
      obtain ⟨hkeys, hpos⟩ := validateCaps_spec hcaps
      refine ⟨by simpa [dictKeys] using hkeys, fun e c hc => ?_⟩
      rcases List.mem_cons.mp hc with heq | hc
      · cases heq
        exact positiveInt_pos hcap
      · exact hpos e c hc

/-- An identifier holds no dot, so the first dot of an edge identity ends the stage name. -/
lemma ne_dot_of_isIdentifier {t : Text} (h : isIdentifier t = true) : ∀ c ∈ t, c ≠ 0x2E := by
  cases t with
  | nil => simp
  | cons a rest =>
      simp only [isIdentifier, Bool.and_eq_true, List.all_eq_true] at h
      rintro c hc rfl
      rcases List.mem_cons.mp hc with rfl | hc
      · exact absurd h.1 (by decide)
      · exact absurd (h.2 _ hc) (by decide)

lemma edgeId_injective {s s' o o' : Text} (hs : isIdentifier s = true)
    (hs' : isIdentifier s' = true) (h : Profile.edgeId s o = Profile.edgeId s' o') :
    s = s' ∧ o = o' := by
  have hdot := ne_dot_of_isIdentifier hs
  have hdot' := ne_dot_of_isIdentifier hs'
  unfold Profile.edgeId at h
  clear hs hs'
  induction s generalizing s' with
  | nil =>
      cases s' with
      | nil => exact ⟨rfl, by simpa using h⟩
      | cons c s' =>
          have := (List.cons.inj h).1
          exact absurd this.symm (hdot' c List.mem_cons_self)
  | cons c s ih =>
      cases s' with
      | nil => exact absurd (List.cons.inj h).1 (hdot c List.mem_cons_self)
      | cons c' s' =>
          obtain ⟨rfl, htail⟩ := List.cons.inj h
          obtain ⟨rfl, rfl⟩ := ih htail (fun c hc => hdot c (List.mem_cons_of_mem _ hc))
            fun c hc => hdot' c (List.mem_cons_of_mem _ hc)
          exact ⟨rfl, rfl⟩

lemma eq_nil_of_sorted {items : List Text} (h : sorted items = []) : items = [] := by
  refine List.eq_nil_iff_forall_not_mem.mpr fun t ht => ?_
  have := (List.perm_insertionSort (fun s t => textLe s t = true) items.dedup).mem_iff.mpr
    (List.mem_dedup.mpr ht)
  rw [sorted] at h
  rw [h] at this
  cases this

/-- A profile that validates is well formed. -/
theorem validateProfile_wellFormed {data : Value} {p : Profile}
    (h : validateProfile data = .ok p) : p.WellFormed := by
  unfold validateProfile at h
  split at h
  · obtain ⟨-, -, h⟩ := bind_eq_ok.mp h
    obtain ⟨version, -, h⟩ := bind_eq_ok.mp h
    obtain ⟨type, -, h⟩ := bind_eq_ok.mp h
    obtain ⟨initialStage, -, h⟩ := bind_eq_ok.mp h
    obtain ⟨maxTransitions, hmax, h⟩ := bind_eq_ok.mp h
    split at h
    · obtain ⟨stages, hstages, h⟩ := bind_eq_ok.mp h
      obtain ⟨-, -, h⟩ := bind_eq_ok.mp h
      split at h
      · cases h
      · next initial hinitial =>
        obtain ⟨_, hworks, h⟩ := bind_eq_ok.mp h
        split at h
        · next rawCaps hcaps =>
          split at h
          · cases h
          · next hmissing =>
            obtain ⟨_, hcover, h⟩ := bind_eq_ok.mp h
            obtain ⟨caps, hvalid, h⟩ := bind_eq_ok.mp h
            cases h
            obtain ⟨hnodup, hnamed⟩ := validateStages_spec hstages List.nodup_nil (by simp)
            obtain ⟨hkeys, hpos⟩ := validateCaps_spec hvalid
            have hcover := of_decide_eq_true (require_eq_ok.mp hcover)
            refine ⟨hnodup, hnamed, ⟨initial, hinitial, by simpa using hworks⟩, ?_,
              nodup_dictOf _, fun e => ?_, fun e c hc => hpos e c (mem_of_mem_dictOf hc),
              positiveInt_pos hmax⟩
            · intro name s hs o t ho
              have := List.find?_eq_none.mp hmissing (s.name, o, t)
                (List.mem_flatMap.mpr ⟨(name, s), hs, List.mem_map.mpr ⟨(o, t), ho, rfl⟩⟩)
              simpa [Option.eq_none_iff_forall_not_mem, Option.isNone_iff_eq_none,
                Option.ne_none_iff_exists'] using this
            · rw [mem_dictKeys_dictOf, hkeys]
              have h1 := eq_nil_of_sorted hcover.1
              have h2 := eq_nil_of_sorted hcover.2
              rw [List.filter_eq_nil_iff] at h1 h2
              exact ⟨fun he => by_contra fun hn => h2 e he (decide_eq_true hn),
                fun he => by_contra fun hn => h1 e he (decide_eq_true hn)⟩
        · cases h
    · cases h
  · cases h

/-! ## A profile -/

/-- A draft, a review that accepts it, sends it back or asks the user, and an end. -/
def draftReviewDocument : Value :=
  .obj [("version", .int 1), ("type", .str "propose"), ("initial_stage", .str "draft"),
    ("max_transitions", .int 14),
    ("stages", .obj [
      ("draft", .obj [("owner", .str "claude"), ("attempt_cap", .int 2), ("timeout", .int 600),
        ("prompt", .str "Write the draft."), ("outcomes", .obj [("drafted", .str "review")])]),
      ("review", .obj [("owner", .str "codex"), ("attempt_cap", .int 2), ("timeout", .int 600),
        ("prompt", .str "Review the draft."),
        ("outcomes", .obj [("ready", .str "done"), ("needs_correction", .str "draft"),
          ("needs_user_decision", .str "done")])]),
      ("done", .obj [("terminal", .str "done")])]),
    ("edge_caps", .obj [("draft.drafted", .int 5), ("review.ready", .int 1),
      ("review.needs_correction", .int 2), ("review.needs_user_decision", .int 1)])]

def draftReviewProfile : Profile where
  version := 1
  type := "propose"
  initialStage := "draft"
  maxTransitions := 14
  stages := [
    ("draft", ⟨"draft", some .claude, some 2, some 600, some ("Write the draft." : Text),
      [("drafted", "review")], none⟩),
    ("review", ⟨"review", some .codex, some 2, some 600, some ("Review the draft." : Text),
      [("ready", "done"), ("needs_correction", "draft"), ("needs_user_decision", "done")], none⟩),
    ("done", ⟨"done", none, none, none, none, [], some .done⟩)]
  edgeCaps := [("draft.drafted", 5), ("review.ready", 1), ("review.needs_correction", 2),
    ("review.needs_user_decision", 1)]

lemma validateProfile_draftReview :
    validateProfile draftReviewDocument = .ok draftReviewProfile := by
  decide +kernel

def draftReview : FrozenProfile where
  profile := draftReviewProfile
  wellFormed := validateProfile_wellFormed validateProfile_draftReview

end AgentOrch
