import AgentOrch.Construction.ReviewTask
import AgentOrch.Construction.Trajectory
import AgentOrch.Framework.JsonAscii

/-!
# Execution plans

A request names a role, a provider, a model and an effort for every working stage of a profile; what
it leaves out comes from the defaults of the role.  The plan it resolves to is sealed by its digest,
written in front of the input of the task, and read back from there.
-/

namespace AgentOrch

open Py Json

namespace Execution

variable (rt : Runtime) (pf : Platform)

/-! ## Policies -/

/-- `SCHEMA_VERSION` -/
def schemaVersion : ℤ := 1

/-- `EFFORTS` -/
def efforts : List Text := ["low", "medium", "high"]

/-- What a policy says of the roles: the provider of each, and the one model of some. -/
structure Policy where
  roles : List (Text × Text)
  modelLocks : List (Text × Text)

def defaultPolicy : Text := "execution-v1"

def executionV1 : Policy where
  roles := [("executor", "codex"), ("reviewer", "claude")]
  modelLocks := [("reviewer", "claude-fable-5-1")]

/-- `POLICIES` -/
def policies : List (Text × Policy) := [(defaultPolicy, executionV1)]

def planBegin : Text := "<!-- orch-execution-plan:v1 -->"

def planEnd : Text := "<!-- /orch-execution-plan -->"

/-! ## Shapes -/

def isAlphanumeric (c : CodePoint) : Bool := isAsciiLetter c || isAsciiDigit c

/-- `TOKEN.fullmatch` -/
def isToken (t : Text) : Bool :=
  t.length ≤ 200 && t.head?.any isAlphanumeric &&
    t.all fun c => isAlphanumeric c || decide (c ∈ ("._:/-" : Text))

/-- `IDENTITY.fullmatch` -/
def isIdentity (t : Text) : Bool :=
  t.length ≤ 128 && t.head?.any isAlphanumeric &&
    t.all fun c => isAlphanumeric c || decide (c ∈ ("_-" : Text))

/-- `_keys` -/
def keysOf (value : Value) (required optional : List Text) (label : Text) :
    Except Exc (List (Text × Value)) :=
  match value with
  | .obj items => do
    let missing := sorted (required.filter (· ∉ dictKeys items))
    let unknown := sorted ((dictKeys items).filter fun k => k ∉ required && k ∉ optional)
    require (missing = [] && unknown = []) (.executionConfigError
      (label ++ ": missing=" ++ reprValue rt (.arr (missing.map .str)) ++ ", unknown=" ++
        reprValue rt (.arr (unknown.map .str))))
    return items
  | _ => .error (.executionConfigError (label ++ ": expected object"))

/-- `_token` -/
def token (value : Value) (label : Text) : Except Exc Text :=
  let refused := Exc.executionConfigError
    (label ++ ": expected a non-option identifier without whitespace")
  match value with
  | .str t => if isToken t then .ok t else .error refused
  | _ => .error refused

/-- A text, or `None`. -/
def optionValue : Option Text → Value
  | some t => .str t
  | none => .null

/-- The text a value is, if it is one. -/
def textOf : Value → Option Text
  | .str t => some t
  | _ => none

/-! ## Plans -/

structure ExecutionChoice where
  role : Text
  provider : Text
  requestedModel : Option Text
  requestedEffort : Option Text
  model : Text
  effort : Text
  deriving DecidableEq

/-- Where a value came from. -/
def source (requested : Option Text) : Text :=
  if requested.isSome then "explicit" else "role_default"

/-- `ExecutionChoice.to_dict` -/
def ExecutionChoice.toDict (c : ExecutionChoice) : List (Text × Value) :=
  [("role", .str c.role), ("provider", .str c.provider),
    ("requested_model", optionValue c.requestedModel),
    ("requested_effort", optionValue c.requestedEffort), ("model", .str c.model),
    ("effort", .str c.effort), ("model_source", .str (source c.requestedModel)),
    ("effort_source", .str (source c.requestedEffort))]

structure ExecutionPlan where
  logicalWorkId : Text
  specSeriesId : Text
  stages : List (Text × ExecutionChoice)
  defaultsDigest : Option Text
  policyVersion : Option Text
  deriving DecidableEq

/-- `ExecutionPlan.to_dict` -/
def ExecutionPlan.toDict (p : ExecutionPlan) : List (Text × Value) :=
  [(("schema_version" : Text), .int schemaVersion), ("logical_work_id", .str p.logicalWorkId),
    ("spec_series_id", .str p.specSeriesId), ("defaults_digest", optionValue p.defaultsDigest),
    ("stages", .obj (p.stages.map fun s => (s.1, .obj s.2.toDict)))] ++
  (p.policyVersion.map fun v => (("policy_version" : Text), Value.str v)).toList

/-- `canonical_json`, for a value without floats. -/
def canonicalJson (v : Value) : Except Exc Bytes := do
  let t ← rt.dumpsSorted v
  encoded t

/-- `ExecutionPlan.digest` -/
def ExecutionPlan.digest (p : ExecutionPlan) : Except Exc Text :=
  (canonicalJson pf.toRuntime (.obj p.toDict)).map pf.sha256

/-! ## Resolving a request -/

/-- The defaults of the roles. -/
abbrev Defaults := List (Text × List (Text × Text))

/-- `config.get(field, fallback.get(field))` -/
def chosen (field : Text) (config : List (Text × Value)) (fallback : List (Text × Text)) : Value :=
  (dictGet field config).getD (optionValue (dictGet field fallback))

/-- The choice a request makes for one stage. -/
def resolveStage (policy : Policy) (profile : Profile) (defaults : Defaults) (name : Text)
    (config : Value) : Except Exc ExecutionChoice := do
  let refused (what : Text) := Exc.executionConfigError ("stage " ++ name ++ ": " ++ what)
  let items ← keysOf rt config ["role", "provider"] ["model", "effort"] ("stage " ++ name)
  match textOf (getValue "role" items) with
  | none => throw (refused "unsupported role")
  | some role =>
    match dictGet role policy.roles with
    | none => throw (refused "unsupported role")
    | some provider => do
      let disagrees := refused "role/provider disagrees with supported pairing or profile"
      require ((getValue "provider" items).eqv (.str provider)) disagrees
      let stage ← profile.stage name
      require (stage.owner.map Owner.text = some provider) disagrees
      let fallback := (dictGet role defaults).getD []
      let model ← token (chosen "model" items fallback) ("stage " ++ name ++ ".model")
      match textOf (chosen "effort" items fallback) with
      | none => throw (refused
          ("unsupported effort " ++ reprValue rt (chosen "effort" items fallback)))
      | some effort => do
        require (effort ∈ efforts) (refused ("unsupported effort " ++ reprValue rt (.str effort)))
        let locked := dictGet role policy.modelLocks
        require (locked.all (model = ·))
          (refused ("opt-in " ++ role ++ " must be " ++ locked.getD []))
        return ⟨role, provider, textOf (getValue "model" items), textOf (getValue "effort" items),
          model, effort⟩

/-- The loop over the stages of the request. -/
def resolveStages (policy : Policy) (profile : Profile) (defaults : Defaults) :
    List (Text × ExecutionChoice) → List (Text × Value) →
      Except Exc (List (Text × ExecutionChoice))
  | resolved, [] => .ok resolved
  | resolved, (name, config) :: rest => do
    let choice ← resolveStage rt policy profile defaults name config
    resolveStages policy profile defaults (dictSet name choice resolved) rest

/-- `POLICIES[policy_version]`; a list or an object has no hash. -/
def policyOf (version : Value) : Except Exc (Text × Policy) :=
  let refused := Exc.executionConfigError ("unsupported policy_version " ++ reprValue rt version)
  match version with
  | .arr _ => .error (.typeError "unhashable type: 'list'")
  | .obj _ => .error (.typeError "unhashable type: 'dict'")
  | .str t =>
    match dictGet t policies with
    | some policy => .ok (t, policy)
    | none => .error refused
  | _ => .error refused

/-- The working stages of a profile. -/
def workingStages (profile : Profile) : List Text :=
  (profile.stages.filter fun s => s.2.terminal.isNone).map Prod.fst

/-- Does a choice leave something to the defaults? -/
def usesDefault (stages : List (Text × ExecutionChoice)) : Bool :=
  stages.any fun s => s.2.requestedModel.isNone || s.2.requestedEffort.isNone

/-- The defaults as `canonical_json` writes them. -/
def defaultsValue (defaults : Defaults) : Value :=
  .obj (defaults.map fun d => (d.1, .obj (d.2.map fun v => (v.1, .str v.2))))

/-- `resolve_request` -/
def resolveRequest (request : Value) (profile : Profile) (defaults : Defaults) :
    Except Exc ExecutionPlan := do
  let items ← keysOf pf.toRuntime request
    ["schema_version", "logical_work_id", "spec_series_id", "stages"] ["policy_version"] "execution"
  let (version, policy) ← policyOf pf.toRuntime
    ((dictGet "policy_version" items).getD (.str defaultPolicy))
  require (match getValue "schema_version" items with
      | .int n => n = schemaVersion
      | _ => false)
    (.executionConfigError "unsupported execution schema_version")
  let work ← token (getValue "logical_work_id" items) "logical_work_id"
  let series ← token (getValue "spec_series_id" items) "spec_series_id"
  require (isIdentity work && isIdentity series)
    (.executionConfigError "work and spec identities must be path-safe identifiers")
  let stages ← keysOf pf.toRuntime (getValue "stages" items) (workingStages profile) [] "stages"
  let resolved ← resolveStages pf.toRuntime policy profile defaults [] stages
  let policyVersion := if version = defaultPolicy then none else some version
  if usesDefault resolved then
    let bytes ← canonicalJson pf.toRuntime (defaultsValue defaults)
    return ⟨work, series, resolved, some (pf.sha256 bytes), policyVersion⟩
  else return ⟨work, series, resolved, none, policyVersion⟩

/-! ## Restoring a plan -/

/-- The check of one stored field against where it is said to come from. -/
def provenanceAgrees (item : List (Text × Value)) (field : Text) : Bool :=
  let requested := getValue ("requested_" ++ field) item
  let source : Text := match requested with
    | .null => "role_default"
    | _ => "explicit"
  (getValue (field ++ "_source") item).eqv (.str source) &&
    (match requested with
      | .null => true
      | _ => requested.eqv (getValue field item))

def storedChoiceKeys : List Text :=
  ["role", "provider", "requested_model", "requested_effort", "model", "effort", "model_source",
    "effort_source"]

/-- The loop over the stored stages: what each requests, in full. -/
def restoreStages : List (Text × Value) → List (Text × Value) → Except Exc (List (Text × Value))
  | requests, [] => .ok requests
  | requests, (name, value) :: rest => do
    let item ← keysOf rt value storedChoiceKeys [] name
    require (provenanceAgrees item "model") (.executionConfigError
      ("snapshot " ++ name ++ ": inconsistent model provenance"))
    require (provenanceAgrees item "effort") (.executionConfigError
      ("snapshot " ++ name ++ ": inconsistent effort provenance"))
    let request : Value := .obj ((["role", "provider", "model", "effort"] : List Text).map
      fun key => (key, getValue key item))
    restoreStages (dictSet name request requests) rest

/-- A resolved choice with what the stored one says was requested. -/
def restoredChoice (stages : List (Text × Value)) (name : Text) (choice : ExecutionChoice) :
    ExecutionChoice :=
  match getValue name stages with
  | .obj item => { choice with
      requestedModel := textOf (getValue "requested_model" item)
      requestedEffort := textOf (getValue "requested_effort" item) }
  | _ => choice

/-- The stored digest of the defaults: there is one if something was left to them. -/
def restoredDefaults (used : Bool) (digest : Value) : Except Exc (Option Text) :=
  let refused := Exc.executionConfigError "inconsistent defaults digest"
  match used, digest with
  | true, .str d => if isHexDigest d then .ok (some d) else .error refused
  | false, .null => .ok none
  | _, _ => .error refused

/-- `restore_plan` -/
def restorePlan (data : Value) (profile : Profile) (expected : Value) :
    Except Exc ExecutionPlan := do
  let items ← keysOf pf.toRuntime data
    ["schema_version", "logical_work_id", "spec_series_id", "stages", "defaults_digest"]
    ["policy_version"] "snapshot"
  match getValue "stages" items with
  | .obj stages => do
    let requests ← restoreStages pf.toRuntime [] stages
    let request := Value.obj
      (dictSet "stages" (.obj requests) (items.filter fun item =>
        item.1 ∉ (["stages", "defaults_digest"] : List Text)))
    let checked ← resolveRequest pf request profile []
    let restored := checked.stages.map fun s => (s.1, restoredChoice stages s.1 s.2)
    let digest ← restoredDefaults (usesDefault restored) (getValue "defaults_digest" items)
    let plan := { checked with stages := restored, defaultsDigest := digest }
    let found ← plan.digest pf
    require (expected.eqv (.str found)) (.executionConfigError "execution snapshot hash mismatch")
    return plan
  | _ => throw (.executionConfigError "snapshot stages must be an object")

/-! ## The frame -/

/-- `json.dumps(v, sort_keys=True)` -/
def dumpsPlain (v : Value) : Except Exc Text :=
  match v.sortKeys.lenientRefusal rt.dumpsDepth with
  | some .depth => .error .recursionError
  | some _ => .error (.valueError "Exceeds the limit (4300 digits) for integer string conversion")
  | none => .ok (v.sortKeys.laid (.plain rt.floatRepr) 0)

/-- What stands in the frame of a plan. -/
def frameOf (plan : ExecutionPlan) (digest : Text) (review session : Option Value) : Value :=
  .obj ([(("plan" : Text), .obj plan.toDict), ("digest", .str digest)] ++
    (review.map fun v => (("review" : Text), v)).toList ++
    (session.map fun v => (("session" : Text), v)).toList)

/-- `render_plan` -/
def renderPlan (plan : ExecutionPlan) (review session : Option Value) : Except Exc Text := do
  let digest ← plan.digest pf
  let text ← dumpsPlain pf.toRuntime (frameOf plan digest review session)
  return planBegin ++ "\n" ++ text ++ "\n" ++ planEnd ++ "\n"

/-- The line that ends a frame. -/
def closing : Text := "\n" ++ planEnd ++ "\n"

/-- `json.loads(raw, object_pairs_hook=_unique_object)`, whose `ValueError`s are refusals. -/
def loadsFrame (raw : Text) : Except Exc Value :=
  match rt.loads true raw with
  | .error e =>
    if e.isValueError then .error (.executionConfigError "invalid execution snapshot JSON")
    else .error e
  | result => result

/-- `extract_plan` -/
def extractPlan (text : Text) (profile : Profile) : Except Exc (Option ExecutionPlan) :=
  if !contains planBegin text && !contains planEnd text then .ok none
  else if !(planBegin ++ "\n").isPrefixOf text || count planBegin text ≠ 1 ||
      count planEnd text ≠ 1 then
    .error (.executionConfigError "execution plan must be a unique input prefix")
  else do
    let body := text.drop (planBegin.length + 1)
    let (raw, tail) := (splitFirst closing body).getD (body, [])
    require (!tail.isEmpty || closing.isSuffixOf text)
      (.executionConfigError "malformed execution plan framing")
    let data ← loadsFrame pf.toRuntime raw
    let items ← keysOf pf.toRuntime data ["plan", "digest"] ["review", "session"] "execution frame"
    let plan ← restorePlan pf (getValue "plan" items) profile (getValue "digest" items)
    return some plan

/-- `review_context` -/
def reviewContext (text field : Text) : Except Exc Value :=
  if (planBegin ++ "\n").isPrefixOf text then do
    let body := text.drop (planBegin.length + 1)
    let raw := ((splitFirst closing body).getD (body, [])).1
    match ← rt.loads true raw with
    | .obj items => return getValue field items
    | _ => throw (.attributeError "object has no attribute 'get'")
  else .ok .null

end Execution

end AgentOrch
