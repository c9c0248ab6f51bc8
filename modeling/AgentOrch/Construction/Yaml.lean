import AgentOrch.Construction.Exceptions
import AgentOrch.Framework.JsonText
import AgentOrch.Framework.Numbers

/-!
# The YAML of the lifecycle files

The records of a task are written by an emitter and read by a parser of their own: a block is a list
or a mapping at one indentation, a scalar is one line.  The parser works on the lines that are not
blank.
-/

namespace AgentOrch

open Py Json

namespace Yaml

/-! ## Reading -/

/-- `_line_indent` -/
def lineIndent (line : Text) : ℕ := (line.takeWhile fun c => decide (c = 0x20)).length

section
variable (rt : Runtime)

/-- `_parse_yaml_scalar` -/
def parseScalar (value : Text) : Except Exc Value :=
  if value = "null" then .ok .null
  else if value = "true" then .ok (.bool true)
  else if value = "false" then .ok (.bool false)
  else match rt.loads false value with
    | .error (.jsonDecodeError _) =>
      match intOf rt.unicode value with
      | some n => .ok (.int n)
      | none =>
        match floatOf rt.unicode value with
        | some x => .ok (.float x)
        | none => .ok (.str value)
    | parsed => parsed

/-- The lines after a key or a dash without a value hold its block. -/
def opensBlock (indent : ℕ) : List Text → Bool
  | [] => false
  | next :: _ => indent < lineIndent next

mutual

/-- `_parse_yaml_block` of the lines that are left, with `depth` blocks still to be opened at most. -/
def parseBlock (fuel depth indent : ℕ) (lines : List Text) : Except Exc (Value × List Text) :=
  match fuel, depth with
  | 0, _ | _, 0 => .error .recursionError
  | fuel + 1, depth + 1 =>
    match lines with
    | [] => .ok (.obj [], [])
    | line :: _ =>
      if (stripPrefix "-" (line.drop indent)).isSome then
        parseList fuel depth indent [] lines
      else parseDict fuel depth indent [] lines

/-- `_parse_yaml_dict`, with the items so far. -/
def parseDict (fuel depth indent : ℕ) (result : List (Text × Value)) (lines : List Text) :
    Except Exc (Value × List Text) :=
  match fuel, lines with
  | 0, _ => .error .recursionError
  | _, [] => .ok (.obj result, [])
  | fuel + 1, line :: rest =>
    if lineIndent line < indent then .ok (.obj result, lines)
    else if indent < lineIndent line then .error (.valueError "unexpected YAML indentation")
    else if (stripPrefix "-" (line.drop indent)).isSome then .ok (.obj result, lines)
    else match splitFirst ":" (line.drop indent) with
      | none => .error (.valueError "invalid YAML mapping line")
      | some (key, raw) =>
        if !isBlank raw then do
          let value ← parseScalar rt (strip raw)
          parseDict fuel depth indent (dictSet key value result) rest
        else if opensBlock indent rest then do
          let (value, left) ← parseBlock fuel depth ((rest.head?.map lineIndent).getD 0) rest
          parseDict fuel depth indent (dictSet key value result) left
        else parseDict fuel depth indent (dictSet key (.obj []) result) rest

/-- `_parse_yaml_list`, with the items so far. -/
def parseList (fuel depth indent : ℕ) (result : List Value) (lines : List Text) :
    Except Exc (Value × List Text) :=
  match fuel, lines with
  | 0, _ => .error .recursionError
  | _, [] => .ok (.arr result, [])
  | fuel + 1, line :: rest =>
    if lineIndent line < indent then .ok (.arr result, lines)
    else if lineIndent line ≠ indent then
      .error (.valueError "unexpected YAML list indentation")
    else match stripPrefix "-" (line.drop indent) with
      | none => .ok (.arr result, lines)
      | some raw =>
        if !isBlank raw then do
          let value ← parseScalar rt (strip raw)
          parseList fuel depth indent (result ++ [value]) rest
        else if opensBlock indent rest then do
          let (item, left) ← parseBlock fuel depth ((rest.head?.map lineIndent).getD 0) rest
          parseList fuel depth indent (result ++ [item]) left
        else parseList fuel depth indent (result ++ [.null]) rest

end

/-- `_read_yaml` of a text. -/
def readYaml (depth : ℕ) (text : Text) : Except Exc Value :=
  let lines := (splitlines text).filter fun line => !isBlank line
  match lines with
  | [] => .ok (.obj [])
  | first :: _ => do
    let (value, left) ← parseBlock rt (2 * lines.length + 2) depth (lineIndent first) lines
    require left.isEmpty (.valueError "cannot parse YAML artifact")
    return value

/-- `_read_yaml` of the bytes of a file. -/
def readYamlBytes (depth : ℕ) (bytes : Bytes) : Except Exc Value :=
  match decodeStrict bytes with
  | some text => readYaml rt depth (universalNewlines text)
  | none => .error .unicodeDecodeError

/-! ## Writing -/

def isContainer : Value → Bool
  | .arr _ | .obj _ => true
  | _ => false

/-- `_yaml_scalar`; of a container it would be the literal of its `str`. -/
def yamlScalar : Value → Text
  | .null => "null"
  | .bool true => "true"
  | .bool false => "false"
  | .int n => intText n
  | .float x => rt.floatRepr x
  | .str s => 0x22 :: escaped s
  | v => 0x22 :: escaped (reprValue rt v)

/-- `" " * indent` -/
def spaces (indent : ℕ) : Text := List.replicate indent 0x20

mutual

/-- `_yaml_lines` -/
def yamlLines (indent : ℕ) : Value → List Text
  | .obj items => yamlDictLines indent items
  | .arr items => yamlListLines indent items
  | v => [spaces indent ++ yamlScalar rt v]

def yamlDictLines (indent : ℕ) : List (Text × Value) → List Text
  | [] => []
  | (key, item) :: rest =>
    (if isContainer item then
      (spaces indent ++ key ++ (":" : Text)) :: yamlLines (indent + 2) item
    else [spaces indent ++ key ++ (": " : Text) ++ yamlScalar rt item]) ++
      yamlDictLines indent rest

def yamlListLines (indent : ℕ) : List Value → List Text
  | [] => []
  | item :: rest =>
    (if isContainer item then (spaces indent ++ ("-" : Text)) :: yamlLines (indent + 2) item
    else [spaces indent ++ ("- " : Text) ++ yamlScalar rt item]) ++ yamlListLines indent rest

end

/-- `_to_yaml`, where `room` is how many containers the writer may open. -/
def toYaml (room : ℕ) (v : Value) : Except Exc Text :=
  match v.lenientRefusal room with
  | some .depth => .error .recursionError
  | some _ => .error (.valueError "Exceeds the limit (4300 digits) for integer string conversion")
  | none => .ok (join [0x0A] (yamlLines rt 0 v) ++ [0x0A])

/-- What `_write_yaml` leaves in the file. -/
def writeYaml (room : ℕ) (data : List (Text × Value)) : Except Exc Bytes := do
  let text ← toYaml rt room (.obj data)
  match encodeStrict text with
  | some bytes => return bytes
  | none => .error .unicodeEncodeError

end

end Yaml

end AgentOrch
