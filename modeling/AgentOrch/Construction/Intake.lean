import AgentOrch.Construction.EnvelopeBlock
import AgentOrch.Construction.Execution
import AgentOrch.Framework.PathText
import AgentOrch.Framework.Regex

/-!
# Intake

A task enters with the words of its operator, and an untrusted resolver proposes what they permit.
The engine checks the proposal axis by axis against the words themselves: a quote counts when it
occurs in them up to white space and letter case.  What passes is rendered anew into the envelope of
the task, and whatever does not pass stops the task before anything runs.
-/

namespace AgentOrch

open Py Json

namespace Intake

/-- What intake takes from the machine: the folding of a character, and the home directory of a user,
the current one under the empty name. -/
structure Machine extends Platform where
  casefold : CodePoint → Text
  home : Text → Except Exc (Option Text)

/-- Why a step of intake does not return.  An `EnvelopeResolverError` stops the task; the others
leave intake. -/
inductive Failure
  | envelopeResolverError (message : Text)
  | runtimeError (message : Text)
  | raised (exc : Exc)

/-- `if not condition: raise EnvelopeResolverError(message)` -/
def demand (condition : Bool) (message : Text) : Except Failure Unit :=
  if condition then .ok () else .error (.envelopeResolverError message)

/-- A step that raises leaves intake. -/
def escaping {α : Type} (x : Except Exc α) : Except Failure α := x.mapError .raised

/-! ## The sources -/

structure ExternalDraft where
  path : Text
  text : Text
  sha256 : Text

/-- What intake reads of the record of a task. -/
structure TaskRecord where
  taskDescription : Text
  taskTypeHint : Text
  scope : Option Text
  externalDraft : Option ExternalDraft
  approvedSpec : Option Text
  worktree : Option Text
  executionPlan : Option (Value × Value)
  reviewContext : Option Value
  reviewSession : Option Value

/-- The sources by label, in reading order. -/
abbrev Sources := List (Text × Text)

section
variable (m : Machine)

/-- `str(Path(t).expanduser())` -/
def expandPath (t : Text) : Except Failure Text :=
  let path := PurePath.ofText t
  match path.absolute, path.parts with
  | false, first :: rest =>
    if first.head? = some 0x7E then do
      let home ← escaping (PathText.expanduser m.home first)
      if home.head? = some 0x7E then
        throw (.runtimeError "Could not determine home directory.")
      else return (rest.foldl PurePath.joinpath (.ofText home)).text
    else .ok path.text
  | _, _ => .ok path.text

/-- A text that is there and not empty. -/
def given (t : Option Text) : Option Text := t.filter fun t => !t.isEmpty

/-- `_requirement_sources`, where `read` reads a text file. -/
def requirementSources (read : Text → Except Exc Text) (task : TaskRecord) :
    Except Failure Sources := do
  let sources : Sources := [(("task text" : Text), task.taskDescription)] ++
    ((given task.scope).map fun t => (("scope" : Text), t)).toList ++
    (task.externalDraft.map fun d => (("external draft" : Text), d.text)).toList
  match given task.approvedSpec with
  | none => return sources
  | some spec => do
    let path ← expandPath m spec
    let label : Text := "approved spec " ++ path
    match read path with
    | .ok text => return sources ++ [(label, text)]
    | .error (.osError _) => return sources ++ [(label, [])]
    | .error e => throw (.raised e)

/-- `_scope_text` -/
def scopeText (sources : Sources) : Text :=
  let scope := (dictGet "scope" (dictOf sources)).getD []
  if isBlank scope then (dictGet "task text" (dictOf sources)).getD [] else scope

/-- `re.sub(r"\s+", " ", text)`, where `inside` says that a run has begun. -/
def collapseSpaces (inside : Bool) : Text → Text
  | [] => []
  | c :: t =>
    if isSpace c then (if inside then [] else [0x20]) ++ collapseSpaces true t
    else c :: collapseSpaces false t

/-- `_normalise_for_grounding` -/
def normaliseForGrounding (t : Text) : Text := (strip (collapseSpaces false t)).flatMap m.casefold

/-- `_grounded` -/
def grounded (quote blob : Text) : Bool :=
  !(normaliseForGrounding m quote).isEmpty && contains (normaliseForGrounding m quote) blob

/-- All sources, as a quote is looked up in them. -/
def sourcesBlob (sources : Sources) : Text :=
  normaliseForGrounding m (join "\n" (sources.map Prod.snd))

/-! ## Paths the sources name -/

/-- `[\w.~-]`, `[\w.-]` -/
def pathChar (extra : Text) : Regex :=
  .set fun c => m.unicode.isWord c || decide (c ∈ extra)

/-- `_SOURCE_PATH_TOKEN`, with the whole match as its group. -/
def sourcePathToken : Regex :=
  .group (.seq (Regex.plus (.seq (Regex.plus (pathChar m ".~-")) (Regex.lit "/")))
    (Regex.plus (pathChar m ".-")))

/-- At most `n` repetitions. -/
def upTo (r : Regex) : ℕ → Regex
  | 0 => .empty
  | n + 1 => Regex.opt (.seq r (upTo r n))

/-- `\.[A-Za-z0-9]{1,8}$`; a token has no line end, so its end is the only one. -/
def fileExtension : Regex :=
  let letter := Regex.set Execution.isAlphanumeric
  Regex.concat [Regex.lit ".", letter, upTo letter 7, .lineEnd]

/-- `_sources_name_any_path` -/
def sourcesNameAnyPath (sources : Sources) : Bool :=
  sources.any fun source =>
    ((sourcePathToken m).findall m.unicode.isWord source.2).any fun token =>
      2 ≤ count "/" token || fileExtension.found m.unicode.isWord (rstripChars ".,;" token)

/-- Where a path lands: below the worktree, unless it is absolute. -/
def landing (expanded : Text) (worktree : Option Text) : Except Failure Text :=
  match PathText.isAbs expanded, given worktree with
  | false, some worktree => (expandPath m worktree).map (PathText.joined · expanded)
  | _, _ => .ok expanded

/-- `_normalise_write_target` -/
def normaliseWriteTarget (raw : Text) (worktree : Option Text) : Except Failure (Option Text) :=
  let candidate := rstripChars ",;" (strip (stripChars "\x60" (strip raw)))
  if candidate = [] ∨ (0x20 : CodePoint) ∈ stripChars "/" candidate then .ok none
  else do
    let expanded ← escaping (PathText.expanduser m.home candidate)
    let resolved ← landing m expanded worktree
    let normalised := PathText.normpath resolved
    return if normalised = ("." : Text) ∨ normalised = [] then none else some normalised

end

/-! ## The proposal -/

def resolverBegin : Text := "<!--ORCH-ENVELOPE-PROPOSAL-BEGIN-->"

def resolverEnd : Text := "<!--ORCH-ENVELOPE-PROPOSAL-END-->"

/-- `RESOLVER_REPLY_MAX_CHARS` -/
def resolverReplyMaxChars : ℕ := 64 * 1024

def envelopeMaxMembers : ℕ := 32

def envelopeMaxMemberChars : ℕ := 400

def envelopeMaxEvidenceChars : ℕ := 1200

def writeTargetCandidateLimit : ℕ := 12

def envelopeSemanticAxis : Text := "semantic_change_surface"

def envelopeWriteAxis : Text := "task_owned_write_targets"

def envelopeEmptyDefaultAxes : List Text :=
  ["assurance_ceiling", "threat_model", "evidence_ceiling"]

def resolverAxisKeys : List Text := ["state", "value", "evidence", "detail"]

def envelopeStates : List Text := ["declared", "semantically_silent", "unresolved"]

def userDecision : Text := "user_decision"

def sourceRequirement : Text := "requirement_sources"

def sourceDefault : Text := "safe_default"

def sourceEngine : Text := "engine_owned"

/-- The keys a proposal may have. -/
def allowedKeys : List Text := "schema_version" :: "candidates" :: envelopeAxes

/-- `EnvelopeAxis`; `value` and `source` are `null` where the source has `None`. -/
structure EnvelopeAxis where
  state : Text
  value : Value
  defaultApplied : Bool
  source : Value
  detail : Option Text

/-- An axis the sources do not determine. -/
def unresolvedAxis (detail : Text) : EnvelopeAxis := ⟨"unresolved", .null, false, .null, some detail⟩

/-- `{member: source for member in members}`, for distinct members. -/
def ownedBy (source : Text) (members : List Text) : Value :=
  .obj (members.map fun member => (member, .str source))

/-- A declared set of members. -/
def declaredAxis (members : List Text) : EnvelopeAxis :=
  ⟨"declared", .arr (members.map .str), false, ownedBy sourceRequirement members, none⟩

/-- The default of an axis, with its members. -/
def silentAxis (members : List Text) : EnvelopeAxis :=
  ⟨"semantically_silent", .arr (members.map .str), true, ownedBy sourceDefault members, none⟩

section
variable (m : Machine)

/-- The object that stands between the markers. -/
def proposalOf (body : Text) : Except Failure (List (Text × Value)) :=
  match m.loads false body with
  | .error (.jsonDecodeError e) => .error (.envelopeResolverError
      ("intake resolver proposal is not valid JSON: " ++ e))
  | .error e => .error (.raised e)
  | .ok (.obj payload) => do
    demand ((dictGet "schema_version" payload).any (equalsInt · 1))
      ("intake resolver proposal has unsupported schema_version " ++
        reprOption m.toRuntime (dictGet "schema_version" payload))
    let missing := sorted (envelopeAxes.filter (· ∉ dictKeys payload))
    let extra := sorted ((dictKeys payload).filter (· ∉ allowedKeys))
    demand (missing = [] && extra = []) ("intake resolver proposal axes missing=" ++
      reprList m.unicode missing ++ " unexpected=" ++ reprList m.unicode extra)
    return payload
  | .ok _ => .error (.envelopeResolverError "intake resolver proposal must be a JSON object")

/-- `_resolver_payload` -/
def resolverPayload (reply : Text) : Except Failure (List (Text × Value)) := do
  demand (reply.length ≤ resolverReplyMaxChars) ("intake resolver reply is oversized (" ++
    decimal reply.length ++ " > " ++ decimal resolverReplyMaxChars ++ " chars)")
  let begins := count resolverBegin reply
  let ends := count resolverEnd reply
  demand (begins = 1 && ends = 1)
    ("intake resolver reply does not carry exactly one proposal (begin=" ++ decimal begins ++
      ", end=" ++ decimal ends ++ ")")
  match between resolverBegin resolverEnd reply with
  | none => throw (.envelopeResolverError
      "intake resolver reply closes its proposal before it opens it")
  | some body => proposalOf m body

/-- The texts of a list in which nothing else stands. -/
def textItems : List Value → Option (List Text)
  | [] => some []
  | .str t :: rest => (textItems rest).map (t :: ·)
  | _ :: _ => none

/-- `isinstance(value, list)`, with nothing but texts in it. -/
def textsOf : Value → Option (List Text)
  | .arr items => textItems items
  | _ => none

/-- `_proposed_members` -/
def proposedMembers (axis : Text) (entry : List (Text × Value)) : Except Failure (List Text) :=
  match (textsOf (getValue "value" entry)).filter fun items => items.all (!isBlank ·) with
  | none => .error (.envelopeResolverError
      ("proposed " ++ axis ++ " value must be a list of non-empty strings"))
  | some items => do
    let members := items.map strip
    demand (members.length ≤ envelopeMaxMembers) ("proposed " ++ axis ++ " names " ++
      decimal members.length ++ " members, over the " ++ decimal envelopeMaxMembers ++ " bound")
    demand (members.all (·.length ≤ envelopeMaxMemberChars)) ("proposed " ++ axis ++
      " carries a member longer than " ++ decimal envelopeMaxMemberChars ++ " characters")
    demand members.Nodup ("proposed " ++ axis ++ " repeats a member")
    return members

/-- `_proposed_evidence` -/
def proposedEvidence (axis : Text) (entry : List (Text × Value)) : Except Failure (List Text) :=
  match textsOf (getValue "evidence" entry) with
  | none => .error (.envelopeResolverError
      ("proposed " ++ axis ++ " evidence must be a list of strings"))
  | some quotes => do
    demand (quotes.all (·.length ≤ envelopeMaxEvidenceChars)) ("proposed " ++ axis ++
      " carries a quote longer than " ++ decimal envelopeMaxEvidenceChars ++ " characters")
    return quotes

/-- `_proposed_detail` -/
def proposedDetail (axis : Text) (entry : List (Text × Value)) : Except Failure Text :=
  match getValue "detail" entry with
  | .str detail => .ok ((strip detail).take envelopeMaxEvidenceChars)
  | _ => .error (.envelopeResolverError ("proposed " ++ axis ++ " detail must be a string"))

/-! ## One axis -/

/-- What the sources and the task say, as the axes are checked against it. -/
structure Request where
  blob : Text
  scopeBlob : Text
  worktree : Option Text
  applyShaped : Bool
  sourcesNamePaths : Bool

/-- The branch of the policy. -/
def policyAxis (r : Request) (axis state : Text) (entry : List (Text × Value)) :
    Except Failure EnvelopeAxis :=
  if !(getValue "value" entry).eqv (.str userDecision) then .ok (unresolvedAxis
    ("the sources ask for a scope expansion policy the engine does not honour (" ++
      reprValue m.toRuntime (getValue "value" entry) ++ "); user_decision is the only value"))
  else if state = ("declared" : Text) then do
    let quotes ← proposedEvidence axis entry
    demand (!quotes.isEmpty && quotes.all (grounded m · r.blob))
      ("proposed " ++ axis ++ " is declared without a verbatim quote from the sources")
    return ⟨"declared", .str userDecision, false, .str sourceRequirement, none⟩
  else .ok ⟨"semantically_silent", .str userDecision, true, .str sourceDefault, none⟩

/-- The branch of a silent axis. -/
def silentProposal (r : Request) (axis : Text) (members : List Text) :
    Except Failure EnvelopeAxis :=
  if axis = envelopeWriteAxis then .ok (unresolvedAxis
    ("the sources name no write targets, and this axis has no default; it is never inferred " ++
      "from the semantic change surface, from an implementation layout, or from the execution " ++
      "worktree"))
  else if axis ∈ envelopeEmptyDefaultAxes then do
    demand members.isEmpty ("proposed " ++ axis ++
      " is semantically_silent but carries members; its safe default is []")
    return silentAxis []
  else if members = [] then do
    demand (normaliseForGrounding m r.scopeBlob).isEmpty
      ("proposed semantic_change_surface is semantically_silent with an empty value while the " ++
        "task's scope is not empty; the default is the behaviours the scope names, and an " ++
        "undeterminable behaviour set is unresolved")
    return silentAxis []
  else do
    let ungrounded := members.filter fun member => !grounded m member r.scopeBlob
    demand ungrounded.isEmpty ("proposed semantic_change_surface default expands beyond the " ++
      "task's own scope: " ++ reprList m.unicode ungrounded ++ " is not verbatim in it")
    return silentAxis members

/-- The loop over the declared write targets, with those so far; it stops at a member that is no
path. -/
def writeTargets (worktree : Option Text) : List Text → List Text →
    Except Failure (Except Text (List Text))
  | targets, [] => .ok (.ok targets)
  | targets, member :: rest => do
    match ← normaliseWriteTarget m member worktree with
    | none => return .error member
    | some target =>
      writeTargets worktree (if target ∈ targets then targets else targets ++ [target]) rest

/-- The branch of a declared axis without members. -/
def declaredEmpty (r : Request) (axis : Text) : Except Failure EnvelopeAxis :=
  if axis = envelopeWriteAxis then
    if r.applyShaped then .ok (unresolvedAxis
      ("the sources authorise no write target, but this is an apply task, which changes the " ++
        "repository; the paths it may write are undetermined and are never inferred from the " ++
        "semantic change surface, from an implementation layout, or from the execution worktree"))
    else if r.sourcesNamePaths then .ok (unresolvedAxis
      ("the sources authorise no write target while naming paths the reply does not account " ++
        "for, so the sources do not determine the write set"))
    else .ok (declaredAxis [])
  else .error (.envelopeResolverError ("proposed " ++ axis ++ " is declared with an empty value"))

/-- The loop over the members and their quotes. -/
def checkQuotes (r : Request) (axis : Text) : List (Text × Text) → Except Failure Unit
  | [] => .ok ()
  | (member, quote) :: rest => do
    demand (grounded m quote r.blob) ("proposed " ++ axis ++ " member " ++ repr m.unicode member ++
      " quotes " ++ repr m.unicode quote ++ ", which is not verbatim in the sources")
    checkQuotes r axis rest

/-- The branch of a declared axis. -/
def declaredProposal (r : Request) (axis : Text) (members quotes : List Text) :
    Except Failure EnvelopeAxis :=
  if members = [] then declaredEmpty r axis
  else do
    demand (quotes.length = members.length) ("proposed " ++ axis ++ " carries " ++
      decimal quotes.length ++ " quotes for " ++ decimal members.length ++ " declared members")
    checkQuotes m r axis (members.zip quotes)
    if axis ≠ envelopeWriteAxis then return declaredAxis members
    else match ← writeTargets m r.worktree [] members with
      | .error member => return unresolvedAxis ("the sources name " ++ repr m.unicode member ++
          " as a write target, which is not a path")
      | .ok targets => return declaredAxis targets

/-- `_axis_from_proposal` -/
def axisFromProposal (r : Request) (axis : Text) (entry : Value) : Except Failure EnvelopeAxis :=
  let malformed := "proposed " ++ axis ++ " must be an object with exactly " ++
    reprList m.unicode (sorted resolverAxisKeys)
  match entry with
  | .obj entry => do
    demand (keysAre entry resolverAxisKeys) malformed
    match (Execution.textOf (getValue "state" entry)).filter (· ∈ envelopeStates) with
    | none => throw (.envelopeResolverError ("proposed " ++ axis ++ " has unknown state " ++
        reprValue m.toRuntime (getValue "state" entry)))
    | some state => do
      let detail ← proposedDetail axis entry
      if state = ("unresolved" : Text) then return unresolvedAxis (if detail = [] then
        "the sources do not reduce this axis to one determinate value" else detail)
      else if axis = envelopeEnumAxis then policyAxis m r axis state entry
      else do
        let members ← proposedMembers axis entry
        let quotes ← proposedEvidence axis entry
        if state = ("semantically_silent" : Text) then silentProposal m r axis members
        else declaredProposal m r axis members quotes
  | _ => .error (.envelopeResolverError malformed)

/-! ## The resolution -/

/-- The loop over `ENVELOPE_AXES`. -/
def axesFrom (r : Request) (payload : List (Text × Value)) :
    List Text → Except Failure (List (Text × EnvelopeAxis))
  | [] => .ok []
  | axis :: rest => do
    let resolved ← axisFromProposal m r axis (getValue axis payload)
    let others ← axesFrom r payload rest
    return (axis, resolved) :: others

/-- `axes[axis].state == "unresolved"` -/
def isUnresolved (axes : List (Text × EnvelopeAxis)) (axis : Text) : Bool :=
  (dictGet axis axes).any fun a => a.state = ("unresolved" : Text)

/-- `_unresolved_axes` -/
def unresolvedAxes (axes : List (Text × EnvelopeAxis)) : List Text :=
  envelopeAxes.filter (isUnresolved axes)

/-- `_proposed_candidates` -/
def proposedCandidates (payload : List (Text × Value)) (axes : List (Text × EnvelopeAxis)) :
    Except Failure (List Text) :=
  match (dictGet "candidates" payload).getD .null with
  | .null => .ok []
  | raw => do
    demand (isUnresolved axes envelopeWriteAxis)
      "intake resolver offered write-target candidates for an axis that is not unresolved"
    match (textsOf raw).filter fun items => items.all (!isBlank ·) with
    | none => throw (.envelopeResolverError
        "intake resolver candidates must be a list of non-empty strings")
    | some items => do
      demand (items.length ≤ writeTargetCandidateLimit) ("intake resolver offered " ++
        decimal items.length ++ " candidates, over the " ++ decimal writeTargetCandidateLimit ++
        " bound")
      demand (items.all (·.length ≤ envelopeMaxMemberChars))
        "intake resolver offered an oversized candidate"
      return items.map strip

/-- What the axes of a reply are checked against. -/
def requestOf (sources : Sources) (task : TaskRecord) (readOnlyReview : Bool) : Request where
  blob := sourcesBlob m sources
  scopeBlob := normaliseForGrounding m (scopeText sources)
  worktree := task.worktree
  applyShaped := task.taskTypeHint = ("apply" : Text)
  sourcesNamePaths := sourcesNameAnyPath m sources && !readOnlyReview

/-- The proposed value of the write axis, if it is one that counts as true. -/
def grantsWrites (payload : List (Text × Value)) : Bool :=
  match getValue envelopeWriteAxis payload with
  | .obj entry => (getValue "value" entry).truthy
  | _ => false

/-- `_parse_resolver_reply` -/
def parseResolverReply (reply : Text) (sources : Sources) (task : TaskRecord)
    (readOnlyReview : Bool) : Except Failure (List (Text × EnvelopeAxis) × List Text) := do
  let payload ← resolverPayload m reply
  demand (!(readOnlyReview && grantsWrites payload))
    "tool-less external review cannot grant repository writes"
  let axes ← axesFrom m (requestOf m sources task readOnlyReview) payload envelopeAxes
  let candidates ← proposedCandidates payload axes
  return (axes, candidates)

end

end Intake

end AgentOrch
