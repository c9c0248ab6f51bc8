import AgentOrch.Construction.Exceptions
import Mathlib.Order.Basic

/-!
# Risk rules and what follows from them

A deployment declares its risk vocabulary in a rules file.  Intake evaluates the rules on the text of
a task, mixes the verdict with the keywords it knows itself, and derives from both how risky the task
is, whether it stops at a gate, and whether it may start on its own.

The rules here are those of a file that `parse_risk_rules` accepted, so a category, an action and a
match mode is one of the known ones.
-/

namespace AgentOrch

open Py

namespace Risk

/-! ## The rules -/

inductive Level
  | low
  | medium
  | high
  deriving DecidableEq

def Level.rank : Level → ℕ
  | .low => 0
  | .medium => 1
  | .high => 2

lemma Level.rank_injective : Function.Injective Level.rank := by
  intro a b h
  cases a <;> cases b <;> first | rfl | cases h

instance : LinearOrder Level := LinearOrder.lift' Level.rank Level.rank_injective

/-- `VALID_CATEGORIES` -/
inductive Category
  | highRisk
  | mediumRisk
  | stopGate
  | targetHint
  deriving DecidableEq

/-- `VALID_ACTIONS` -/
inductive Action
  | markHighRisk
  | markMediumRisk
  | requireStopGate
  | requireHumanAck
  | hintTarget
  deriving DecidableEq

/-- `VALID_MATCH_MODES` -/
inductive MatchMode
  | substring
  | word
  | regex
  deriving DecidableEq

structure RiskRule where
  ruleId : Text
  keyword : Text
  category : Category
  action : Action
  mode : MatchMode
  target : Option Text
  deriving DecidableEq

structure RiskRules where
  rules : List RiskRule
  defaultRisk : Level
  defaultRequireStopGate : Bool

/-- What the interpreter does with text: `str.lower`, `\w`, and whether `re.search(pattern, text)`
finds a match. -/
structure TextOps where
  lower : Text → Text
  isWord : CodePoint → Bool
  search : Text → Text → Bool

/-- ASCII text, and patterns without special characters. -/
def TextOps.ascii : TextOps where
  lower := List.map fun c => if 0x41 ≤ c.val ∧ c.val ≤ 0x5A then c + 0x20 else c
  isWord := Unicode.ascii.isWord
  search := contains

/-- `re.search(rf"(?<![\w-]){keyword}(?![\w-])", text)`, where `before` is the character in front of
the text. -/
def wordFound (ops : TextOps) (keyword : Text) (before : Option CodePoint) (text : Text) : Bool :=
  let joins (c : CodePoint) : Bool := ops.isWord c || c == 0x2D
  (!before.any joins && keyword.isPrefixOf text && !(text.drop keyword.length).head?.any joins) ||
    match text with
    | [] => false
    | c :: rest => wordFound ops keyword (some c) rest

/-- `RiskRule.matches` -/
def RiskRule.isMatch (ops : TextOps) (rule : RiskRule) (loweredText : Text) : Bool :=
  match rule.mode with
  | .substring => contains (ops.lower rule.keyword) loweredText
  | .word => wordFound ops (ops.lower rule.keyword) none loweredText
  | .regex => ops.search (ops.lower rule.keyword) loweredText

def RiskRule.marksHigh (rule : RiskRule) : Bool :=
  rule.category = .highRisk || rule.action = .markHighRisk

def RiskRule.marksMedium (rule : RiskRule) : Bool :=
  rule.category = .mediumRisk || rule.action = .markMediumRisk

structure Verdict where
  risk : Level
  high : Bool
  medium : Bool
  requireStopGate : Bool
  requireHumanAck : Bool
  targets : List Text
  matched : List Text

/-- The rules that match the text. -/
def RiskRules.matching (ops : TextOps) (rules : RiskRules) (text : Text) : List RiskRule :=
  rules.rules.filter fun rule => rule.isMatch ops (ops.lower text)

/-- `RiskRules.evaluate` -/
def RiskRules.evaluate (ops : TextOps) (rules : RiskRules) (text : Text) : Verdict :=
  let matched := rules.matching ops text
  let risk : Level :=
    if matched.any RiskRule.marksHigh then .high
    else if matched.any RiskRule.marksMedium then .medium
    else rules.defaultRisk
  { risk := risk
    high := risk = .high
    medium := risk = .medium
    requireStopGate :=
      rules.defaultRequireStopGate || matched.any fun rule => rule.action = .requireStopGate
    requireHumanAck := matched.any fun rule => rule.action = .requireHumanAck
    targets := (matched.filterMap fun rule =>
      if rule.action = .hintTarget then rule.target.filter fun t => !t.isEmpty else none).eraseDups
    matched := matched.map RiskRule.ruleId }

/-! ## Signals -/

def highRiskKeywords : List Text :=
  ["orchestrator/", "router/", "dispatch/", "daemon/", "lock/", "scheduler/", "memory/",
    "persistent-state"]

def mediumRiskKeywords : List Text :=
  ["publish", "deploy", "webhook", "send", "inbox.md", "recap", "metadata"]

def stopGateKeywords : List Text := ["publish", "deploy", "send", "delete", "drop"]

def openspecPresentKeywords : List Text :=
  ["openspec/", "specs/", "changes/", "proposal.md", "spec.md", "design.md", "tasks.md", "task_id"]

def formalChangeKeywords : List Text := ["formal change", "architecture change", "breaking change"]

/-- `any(keyword in text for keyword in keywords)` -/
def anyKeyword (keywords : List Text) (text : Text) : Bool := keywords.any fun k => contains k text

structure Signals where
  taskTypeKeyword : Text
  scopeAmbiguous : Bool
  pathTouchesHighRisk : Bool
  pathTouchesMediumRisk : Bool
  openspecRequired : Bool
  openspecPresent : Bool

/-- `_signals` -/
def signals (ops : TextOps) (rules : RiskRules) (text taskType : Text)
    (approvedSpecGiven scopeAmbiguous : Bool) : Signals :=
  let lowered := ops.lower text
  let external := rules.evaluate ops text
  let pathHigh := anyKeyword highRiskKeywords lowered || external.high
  let pathMedium := anyKeyword mediumRiskKeywords lowered || external.medium
  { taskTypeKeyword := taskType
    scopeAmbiguous := scopeAmbiguous
    pathTouchesHighRisk := pathHigh
    pathTouchesMediumRisk := pathMedium
    openspecRequired :=
      taskType = ("apply" : Text) || anyKeyword formalChangeKeywords lowered || pathHigh
    openspecPresent := approvedSpecGiven || anyKeyword openspecPresentKeywords lowered }

/-! ## What the signals lead to -/

/-- What is read of a task record besides its signals; `approvedSpecText` is what
`_approved_spec_text` finds in the approved spec. -/
structure TaskText where
  taskDescription : Text
  scope : Option Text
  approvedSpecText : Bool

/-- `_combined_text` -/
def combinedText (description : Text) (scope : Option Text) : Text :=
  match description, scope.getD [] with
  | [], t => t
  | t, [] => t
  | t, t' => t ++ (" " : Text) ++ t'

structure RiskLevels where
  semantic : Level
  implementation : Level
  detectionCost : Level

/-- `_risk_from_signals` -/
def riskFromSignals (ops : TextOps) (task : TaskText) (s : Signals) : RiskLevels :=
  let text := ops.lower (combinedText task.taskDescription task.scope)
  { implementation :=
      if s.pathTouchesHighRisk then .high else if s.pathTouchesMediumRisk then .medium else .low
    detectionCost :=
      if anyKeyword ["memory/", "user.md", "soul.md", "memory.md"] text then .high else .low
    semantic :=
      if s.openspecRequired && !s.openspecPresent then .high
      else if s.openspecRequired && s.openspecPresent then
        if task.approvedSpecText then .low else .medium
      else .low }

/-- `_stop_gate` -/
def stopGate (ops : TextOps) (rules : RiskRules) (text : Text) (risk : RiskLevels) : Bool :=
  let lowered := ops.lower text
  if (rules.evaluate ops text).requireStopGate then true
  else (contains "smoke" lowered && anyKeyword ["gated", "stop-gate", "stop gate"] lowered) ||
    decide (risk.implementation = .high) ||
    anyKeyword ["memory/", "daemon/", "dispatch/", "router/", "scheduler/"] lowered ||
    anyKeyword stopGateKeywords lowered

/-- `_auto_start` -/
def autoStart (preflightStatus : Option Text) (risk : RiskLevels) (routeSource : Text) : Bool :=
  if preflightStatus = some ("blocked" : Text) ∨ preflightStatus = some ("waiting_user" : Text) then
    false
  else if risk.implementation = .high ∨ risk.semantic = .high then false
  else if routeSource ∈ (["mixed", "model-adjudicated"] : List Text) then false
  else true

end Risk

end AgentOrch
