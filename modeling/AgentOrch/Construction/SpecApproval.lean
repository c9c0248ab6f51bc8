import AgentOrch.Construction.Exceptions
import AgentOrch.Framework.RegexLanguage

/-!
# The approval marker of a spec

Intake reads off the text of a spec whether somebody approved it: `_SPEC_APPROVAL_RE` looks for a
field that says so.
-/

namespace AgentOrch

open Py

open Regex in
/-- `_SPEC_APPROVAL_RE` -/
def specApprovalRe : Regex :=
  concat [.lineStart, .star (.set isSpace),
    oneOf [litI "status", litI "approval", litI "decision"], .star (.set isSpace), charIn ":=",
    .star (.set isSpace), oneOf [litI "approved", litI "ready", litI "accepted", litI "final"],
    .star (.set isSpace), .lineEnd]

/-- `_spec_is_approved`, where reading the file gives `text`. -/
def specIsApproved (u : Unicode) (text : Except Exc Text) : Except Exc Bool :=
  match text with
  | .ok text => .ok (specApprovalRe.found u.isWord text)
  | .error (.osError _) => .ok false
  | .error e => .error e

end AgentOrch
