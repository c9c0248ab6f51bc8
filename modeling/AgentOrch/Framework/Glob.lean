import AgentOrch.Framework.Text

/-!
# File names and their patterns

`PurePath.stem` and `PurePath.suffix` of a name, and the matching of `fnmatch`: `*` is any text,
`?` one character, `[...]` a set with ranges.  A range whose ends are the wrong way round is taken
out before the set is read, and a bracket that is never closed stands for itself.
-/

namespace AgentOrch.Py

/-! ## Names -/

/-- Where the last dot stands, unless it opens or closes the name. -/
def suffixStart (name : Text) : Option ℕ :=
  let after := (name.reverse.takeWhile (· ≠ 0x2E)).length
  if after = 0 ∨ name.length ≤ after + 1 then none else some (name.length - after - 1)

/-- `path.stem`. -/
def stem (name : Text) : Text :=
  match suffixStart name with
  | some i => name.take i
  | none => name

/-- `path.suffix`. -/
def suffix (name : Text) : Text :=
  match suffixStart name with
  | some i => name.drop i
  | none => []

/-! ## Sets -/

/-- The pieces of a set between the hyphens that make a range; the first `skip` characters of a
piece are no such hyphen. -/
def hyphenPieces : ℕ → Text → Text → List Text
  | _, piece, [] => [piece]
  | skip + 1, piece, c :: t => hyphenPieces skip (piece ++ [c]) t
  | 0, piece, c :: t =>
    if c = 0x2D then piece :: hyphenPieces 2 [] t else hyphenPieces 0 (piece ++ [c]) t

/-- A hyphen at the end stands for itself. -/
def closePieces : List Text → List Text
  | [piece, []] => [piece ++ [0x2D]]
  | piece :: pieces => piece :: closePieces pieces
  | [] => []

/-- Ranges that hold nothing are taken out with both their ends. -/
def dropEmptyRanges : List Text → List Text
  | [] => []
  | piece :: pieces =>
    match dropEmptyRanges pieces with
    | [] => [piece]
    | next :: rest =>
      match piece.getLast?, next.head? with
      | some low, some high =>
        if high < low then (piece.dropLast ++ next.tail) :: rest else piece :: next :: rest
      | _, _ => piece :: next :: rest

/-- Is the character in one of the pieces, or between two of them? -/
def inPieces (c : CodePoint) : List Text → Bool
  | [] => false
  | [piece] => piece.contains c
  | piece :: next :: rest =>
    piece.contains c ||
      (piece.getLast?.any (· ≤ c) && next.head?.any (c ≤ ·)) || inPieces c (next :: rest)

/-! ## Patterns -/

inductive GlobItem
  | any
  | one
  | literal (c : CodePoint)
  | set (negated : Bool) (pieces : List Text)

/-- The set between the brackets. -/
def globSet (content : Text) : GlobItem :=
  let skip := if content.head? = some 0x21 then 2 else 1
  match dropEmptyRanges (closePieces (hyphenPieces skip [] content)) with
  | (0x21 :: piece) :: pieces => .set true (piece :: pieces)
  | pieces => .set false pieces

/-- The content of a set and what follows its closing bracket, after an opening one. -/
def splitSet (t : Text) : Option (Text × Text) :=
  let (bang, t) := if t.head? = some 0x21 then (([0x21] : Text), t.tail) else ([], t)
  let (first, t) := if t.head? = some 0x5D then (([0x5D] : Text), t.tail) else ([], t)
  match t.dropWhile (· ≠ 0x5D) with
  | [] => none
  | _ :: rest => some (bang ++ first ++ t.takeWhile (· ≠ 0x5D), rest)

/-- The items of a pattern; every item takes a character, so its length is fuel enough. -/
def globItems : ℕ → Text → List GlobItem
  | 0, _ => []
  | _, [] => []
  | fuel + 1, c :: t =>
    if c = 0x2A then .any :: globItems fuel t
    else if c = 0x3F then .one :: globItems fuel t
    else if c = 0x5B then
      match splitSet t with
      | some (content, rest) => globSet content :: globItems fuel rest
      | none => .literal c :: globItems fuel t
    else .literal c :: globItems fuel t

def itemMatches (c : CodePoint) : GlobItem → Bool
  | .any => true
  | .one => true
  | .literal d => c = d
  | .set negated pieces => inPieces c pieces != negated

def globMatch : List GlobItem → Text → Bool
  | [], t => t.isEmpty
  | .any :: items, t => t.tails.any fun rest => globMatch items rest
  | item :: items, t =>
    match t with
    | [] => false
    | c :: rest => itemMatches c item && globMatch items rest

/-- `fnmatchcase(name, pattern)`. -/
def fnmatch (name pattern : Text) : Bool := globMatch (globItems pattern.length pattern) name

example : fnmatch "a.b.1f.result.json" "a.*.result.json" = true := by decide +kernel

end AgentOrch.Py
