import AgentOrch.Construction.Exceptions

/-!
# The interpretation envelope

The envelope is a delimited JSON block at the end of the task input.  Framing is fail-closed:
only a text without any marker is a legacy task, and every other shape than exactly one block in
the final position raises.
-/

namespace AgentOrch

open Py Json

def envelopeBegin : Text := "<!--ORCH-ENVELOPE-BEGIN-->"

def envelopeEnd : Text := "<!--ORCH-ENVELOPE-END-->"

/-- Engine-reserved outcome name. -/
def holdOutcome : Text := "needs_user_decision"

def holdStopReason : Text := "user_decision_required"

def envelopeSetAxes : List Text :=
  ["semantic_change_surface", "task_owned_write_targets", "assurance_ceiling", "threat_model",
    "evidence_ceiling"]

def envelopeEnumAxis : Text := "scope_expansion_policy"

def envelopeAxes : List Text := envelopeSetAxes ++ [envelopeEnumAxis]

def envelopeAxisKeys : List Text := ["state", "value", "default_applied", "source"]

def envelopeMemberSources : List Text := ["requirement_sources", "safe_default", "engine_owned"]

/-- The positions of the lines `p` holds of. -/
def linesWhere (p : Text → Bool) (lines : List Text) : List ℕ :=
  (lines.zipIdx.filter fun l => p l.1).map Prod.snd

/-- The raw delimited block, or `none` for a legacy task. -/
def envelopeBlockText (text : Text) : Except Exc (Option Text) :=
  let lines := splitOnChar 0x0A text
  let begins := linesWhere (fun line => strip line = envelopeBegin) lines
  let ends := linesWhere (fun line => strip line = envelopeEnd) lines
  let looseBegin := count envelopeBegin text
  let looseEnd := count envelopeEnd text
  if begins = [] ∧ ends = [] ∧ looseBegin = 0 ∧ looseEnd = 0 then .ok none
  else if looseBegin ≠ 1 ∨ looseEnd ≠ 1 then .error (.envelopeError
    ("envelope marker count is not exactly one pair (begin=" ++ decimal looseBegin ++ ", end=" ++
      decimal looseEnd ++ ")"))
  else match begins, ends with
    | [b], [e] =>
      if e ≤ b then .error (.envelopeError "envelope end marker precedes its begin marker")
      else if (lines.drop (e + 1)).any fun line => !isBlank line then .error
        (.envelopeError "envelope block is not in the writer-owned final position")
      else .ok (some (join "\n" ((lines.take (e + 1)).drop b)))
    | _, _ => .error (.envelopeError
      ("envelope marker count is not exactly one pair (begin=" ++ decimal looseBegin ++ ", end=" ++
        decimal looseEnd ++ ")"))

/-! ## The schema -/

/-- `value in frozenset(names)`, which hashes the value first. -/
def inFrozenset (value : Value) (names : List Text) : Except Exc Bool :=
  match value with
  | .arr _ => .error (.typeError "unhashable type: 'list'")
  | .obj _ => .error (.typeError "unhashable type: 'dict'")
  | .str s => .ok (s ∈ names)
  | _ => .ok false

/-- `value == n` for an integer constant; `True` and `1.0` are equal to `1`. -/
def equalsInt (value : Value) (n : ℤ) : Bool :=
  match value with
  | .int m => m == n
  | .bool b => (if b then 1 else 0) == n
  | .float x => x.eqInt n
  | _ => false

/-- `isinstance(value, list)` with items that are all non-empty strings. -/
def stringItems : List Value → Option (List Text)
  | [] => some []
  | .str s :: rest => if s = [] then none else (stringItems rest).map (s :: ·)
  | _ :: _ => none

/-- The loop over `source.items()`; collects whether every member is a safe default. -/
def validateSources (rt : Runtime) (axis : Text) : List (Text × Value) → Except Exc Bool
  | [] => .ok true
  | (member, provenance) :: rest => do
    let known ← inFrozenset provenance envelopeMemberSources
    require known (.envelopeError ("envelope axis " ++ axis ++ " member " ++
      repr rt.unicode member ++ " has unknown source " ++ reprValue rt provenance))
    let restDefault ← validateSources rt axis rest
    return (match provenance with
      | .str s => s = ("safe_default" : Text)
      | _ => false) && restDefault

/-- The checks on `state` and `default_applied`; the answer is the state. -/
def validateAxisState (rt : Runtime) (axis : Text) (entry : List (Text × Value)) :
    Except Exc Text := do
  let state ← match dictGet "state" entry with
    | some (.str s) =>
      if s ∈ (["declared", "semantically_silent", "unresolved"] : List Text) then pure s
      else throw (.envelopeError ("envelope axis " ++ axis ++ " has unknown state " ++
        repr rt.unicode s))
    | v => throw (.envelopeError ("envelope axis " ++ axis ++ " has unknown state " ++
        reprOption rt v))
  require (state ≠ ("unresolved" : Text)) (.envelopeError
    ("envelope axis " ++ axis ++ " is unresolved and must not be emitted"))
  match dictGet "default_applied" entry with
  | some (.bool defaultApplied) => do
    require (!defaultApplied || state = ("semantically_silent" : Text)) (.envelopeError
      ("envelope axis " ++ axis ++ " applies a default without being semantically_silent"))
    require (!(state = ("semantically_silent" : Text)) || defaultApplied) (.envelopeError
      ("envelope axis " ++ axis ++ " is semantically_silent without default_applied"))
    return state
  | _ => throw (.envelopeError ("envelope axis " ++ axis ++ " default_applied must be a boolean"))

def validateAxis (rt : Runtime) (axis : Text) (entry : Value) : Except Exc Unit :=
  match entry with
  | .obj entry => do
    require (keysAre entry envelopeAxisKeys) (.envelopeError ("envelope axis " ++ axis ++
      " keys must be exactly " ++ reprList rt.unicode (sorted envelopeAxisKeys)))
    let state ← validateAxisState rt axis entry
    require (axis ≠ ("task_owned_write_targets" : Text) || state = ("declared" : Text))
      (.envelopeError "task_owned_write_targets has no default and must be declared")
    let value := (dictGet "value" entry).getD .null
    let source := (dictGet "source" entry).getD .null
    if axis = envelopeEnumAxis then do
      let policy := match value with
        | .str s => s = ("user_decision" : Text)
        | _ => false
      require policy (.envelopeError "scope_expansion_policy must be 'user_decision'")
      let known ← inFrozenset source envelopeMemberSources
      require known (.envelopeError
        ("scope_expansion_policy has unknown source " ++ reprValue rt source))
    else
      match value with
      | .arr items =>
        match stringItems items with
        | none => throw (.envelopeError
            ("envelope axis " ++ axis ++ " value must be a list of non-empty strings"))
        | some names => do
          require names.Nodup (.envelopeError ("envelope axis " ++ axis ++
            " value repeats a member"))
          match source with
          | .obj sources => do
            require (keysAre sources names) (.envelopeError ("envelope axis " ++ axis ++
              " source must name exactly its value members"))
            let defaults ← validateSources rt axis sources
            require (!(state = ("declared" : Text) && defaults && !sources.isEmpty))
              (.envelopeError ("envelope axis " ++ axis ++
                " is declared but every member is a safe default"))
          | _ => throw (.envelopeError ("envelope axis " ++ axis ++
              " source must name exactly its value members"))
      | _ => throw (.envelopeError
          ("envelope axis " ++ axis ++ " value must be a list of non-empty strings"))
  | _ => .error (.envelopeError ("envelope axis " ++ axis ++ " must be an object"))

/-- The loop over `ENVELOPE_AXES`. -/
def validateAxes (rt : Runtime) (payload : List (Text × Value)) : List Text → Except Exc Unit
  | [] => .ok ()
  | axis :: rest => do
    validateAxis rt axis ((dictGet axis payload).getD .null)
    validateAxes rt payload rest

/-- An envelope is the object its block holds. -/
abbrev Envelope := List (Text × Value)

def validateEnvelope (rt : Runtime) (payload : Value) : Except Exc Envelope :=
  match payload with
  | .obj payload => do
    require ((dictGet "schema_version" payload).any (equalsInt · 1)) (.envelopeError
      ("unsupported envelope schema_version: " ++ reprOption rt (dictGet "schema_version" payload)))
    let expected : List Text := "schema_version" :: envelopeAxes
    require (keysAre payload expected) (.envelopeError
      ("envelope axes missing=" ++
        reprList rt.unicode (sorted (expected.filter (· ∉ dictKeys payload))) ++ " unexpected=" ++
        reprList rt.unicode (sorted ((dictKeys payload).filter (· ∉ expected)))))
    validateAxes rt payload envelopeAxes
    return payload
  | _ => .error (.envelopeError "envelope must be a JSON object")

/-- The validated envelope carried by `text`, or `none` for a legacy task. -/
def extractEnvelope (rt : Runtime) (text : Text) : Except Exc (Option Envelope) := do
  match ← envelopeBlockText text with
  | none => return none
  | some block =>
    let body := join "\n" ((splitOnChar 0x0A block).drop 1).dropLast
    match rt.loads false body with
    | .error (.jsonDecodeError m) =>
      throw (.envelopeError ("envelope block is not valid JSON: " ++ m))
    | .error e => throw e
    | .ok payload => some <$> validateEnvelope rt payload

/-! ## A sample -/

/-- A declared axis. -/
def declaredAxis (axis value source : Text) : Text :=
  "\"" ++ axis ++ "\":\x7b\"state\":\"declared\",\"default_applied\":false,\"value\":" ++ value ++
    ",\"source\":" ++ source ++ "\x7d"

/-- An input whose envelope declares nothing but the scope policy. -/
def plainInput : Text :=
  envelopeBegin ++ "\n\x7b\"schema_version\":1," ++
    join "," (envelopeSetAxes.map fun axis => declaredAxis axis "[]" "\x7b\x7d") ++ "," ++
    declaredAxis envelopeEnumAxis "\"user_decision\"" "\"engine_owned\"" ++ "\x7d\n" ++
    envelopeEnd

lemma encodable_plainInput : Encodable plainInput := by decide +kernel

lemma extractEnvelope_plainInput :
    ∃ e, extractEnvelope .standard (universalNewlines plainInput) = .ok (some e) := by
  have hsome : (extractEnvelope .standard (universalNewlines plainInput)).toOption.join.isSome =
      true := by decide +kernel
  cases h : extractEnvelope .standard (universalNewlines plainInput) with
  | error e =>
      rw [h] at hsome
      cases hsome
  | ok e =>
      cases e with
      | none =>
          rw [h] at hsome
          cases hsome
      | some e => exact ⟨e, rfl⟩

/-! ## Allowed outcomes -/

/-- The one derivation of allowed typed outcomes. -/
def allowedOutcomes (stageOutcomes : List Text) (envelopePresent : Bool) : List Text :=
  if envelopePresent ∧ holdOutcome ∉ stageOutcomes then stageOutcomes ++ [holdOutcome]
  else stageOutcomes

lemma mem_allowedOutcomes {names : List Text} {present : Bool} {outcome : Text}
    (h : outcome ∈ allowedOutcomes names present) :
    outcome ∈ names ∨ (present = true ∧ outcome = holdOutcome) := by
  unfold allowedOutcomes at h
  split_ifs at h with hadd
  · rcases List.mem_append.mp h with h | h
    · exact .inl h
    · exact .inr ⟨hadd.1, List.mem_singleton.mp h⟩
  · exact .inl h

end AgentOrch
