import AgentOrch.Construction.Exceptions
import AgentOrch.Framework.Regex

/-!
# Token usage

Token counts are read off the display stream: from every JSON line first, then by patterns over
the whole text.  Nothing bounds what is found, and `int` itself may raise on it.
-/

namespace AgentOrch

open Py Json

structure Usage where
  inputTokens : Option ℤ
  outputTokens : Option ℤ
  totalTokens : Option ℤ
  unavailableReason : Option Text
  deriving DecidableEq

namespace Usage

def empty : Usage := ⟨none, none, none, none⟩

/-- `any(value is not None ...)` over the three counts. -/
def anyReported (u : Usage) : Bool :=
  u.inputTokens.isSome || u.outputTokens.isSome || u.totalTokens.isSome

/-- `_merge_usage`. -/
def merge (target source : Usage) : Usage :=
  { target with
    inputTokens := target.inputTokens.or source.inputTokens
    outputTokens := target.outputTokens.or source.outputTokens
    totalTokens := target.totalTokens.or source.totalTokens }

end Usage

/-- `int(t)` for a text that `isdigit` or `\d+` accepted: a superscript is a digit but no
decimal, and a long literal is refused. -/
def intOfDigits (rt : Runtime) (t : Text) : Except Exc ℤ :=
  if t.any fun c => (rt.unicode.decimal c).isNone then
    .error (.valueError ("invalid literal for int() with base 10: " ++ repr rt.unicode t))
  else if Json.maxIntDigits < t.length then
    .error (.valueError "Exceeds the limit (4300 digits) for integer string conversion")
  else .ok (t.foldl (fun acc c => acc * 10 + ((rt.unicode.decimal c).getD 0 : ℤ)) 0)

/-! ## JSON lines -/

/-- The first of `keys` that holds an integer or a digit string. -/
def tokenValue (rt : Runtime) (candidate : List (Text × Value)) : List Text → Except Exc (Option ℤ)
  | [] => .ok none
  | key :: keys =>
    match dictGet key candidate with
    | some (.int n) => .ok (some n)
    | some (.bool b) => .ok (some (if b then 1 else 0))
    | some (.str s) =>
      if !s.isEmpty && s.all rt.unicode.isDigit then some <$> intOfDigits rt s
      else tokenValue rt candidate keys
    | _ => tokenValue rt candidate keys

/-- `if found[normalized] is not None: continue`, then the loop over the aliases. -/
def tokenField (rt : Runtime) (found : Option ℤ) (candidate : List (Text × Value))
    (keys : List Text) : Except Exc (Option ℤ) :=
  match found with
  | some n => .ok (some n)
  | none => tokenValue rt candidate keys

/-- The loop over the candidates. -/
def usageFromCandidates (rt : Runtime) : Usage → List (List (Text × Value)) → Except Exc Usage
  | found, [] => .ok found
  | found, candidate :: rest => do
    let input ← tokenField rt found.inputTokens candidate
      ["input_tokens", "prompt_tokens", "input", "prompt"]
    let output ← tokenField rt found.outputTokens candidate
      ["output_tokens", "completion_tokens", "output", "completion"]
    let total ← tokenField rt found.totalTokens candidate ["total_tokens", "total"]
    usageFromCandidates rt { found with
      inputTokens := input, outputTokens := output, totalTokens := total } rest

/-- The object itself and its nested usage objects. -/
def usageCandidates (items : List (Text × Value)) : List (List (Text × Value)) :=
  items :: (["usage", "token_usage", "tokens"] : List Text).filterMap fun key =>
    match dictGet key items with
    | some (.obj child) => some child
    | _ => none

mutual

def usageFromJson (rt : Runtime) : Value → Except Exc Usage
  | .arr items => usageFromItems rt .empty items
  | .obj items => usageFromCandidates rt .empty (usageCandidates items)
  | _ => .ok .empty

def usageFromItems (rt : Runtime) (found : Usage) : List Value → Except Exc Usage
  | [] => .ok found
  | v :: rest => do
    let u ← usageFromJson rt v
    usageFromItems rt (found.merge u) rest

end

/-- The loop over `output.splitlines()`. -/
def usageFromLines (rt : Runtime) : Usage → List Text → Except Exc Usage
  | found, [] => .ok found
  | found, line :: rest =>
    match strip line with
    | [] => usageFromLines rt found rest
    | c :: stripped =>
      if c ≠ 0x7B ∧ c ≠ 0x5B then usageFromLines rt found rest
      else match rt.loads false (c :: stripped) with
        | .error e => if e.isValueError then usageFromLines rt found rest else .error e
        | .ok parsed => do
          let u ← usageFromJson rt parsed
          usageFromLines rt (found.merge u) rest

/-! ## Patterns -/

section
open Regex

/-- `\b{first}[_ -]?tokens?\b\s*[:=]\s*(\d+)`, case ignored. -/
def tokenPattern (rt : Runtime) (first : Text) : Regex :=
  concat [.wordBoundary, litI first, opt (charIn "_ -"), litI "token", opt (litI "s"),
    .wordBoundary, .star (.set isSpace), charIn ":=", .star (.set isSpace),
    .group (plus (.set fun c => (rt.unicode.decimal c).isSome))]

/-- The first pattern that matches fills a count that no JSON line filled. -/
def tokenSearch (rt : Runtime) (output : Text) (found : Option ℤ) :
    List Text → Except Exc (Option ℤ)
  | [] => .ok found
  | first :: rest =>
    match found with
    | some n => .ok (some n)
    | none =>
      match search rt.unicode.isWord (tokenPattern rt first) output with
      | some (some digits) => some <$> intOfDigits rt digits
      | _ => tokenSearch rt output none rest

end

/-- `_extract_usage`. -/
def extractUsage (rt : Runtime) (output : Text) : Except Exc Usage := do
  let found ← usageFromLines rt .empty (splitlines output)
  let input ← tokenSearch rt output found.inputTokens ["input", "prompt"]
  let outputTokens ← tokenSearch rt output found.outputTokens ["output", "completion"]
  let total ← tokenSearch rt output found.totalTokens ["total"]
  let total := match total, input, outputTokens with
    | none, some i, some o => some (i + o)
    | _, _, _ => total
  let unavailable := if input.isSome || outputTokens.isSome || total.isSome then none
    else some ("provider_cli_usage_not_reported" : Text)
  return ⟨input, outputTokens, total, unavailable⟩

end AgentOrch
