import AgentOrch.Framework.Json
import AgentOrch.Framework.Unicode
import AgentOrch.Framework.Utf8

/-!
# Exceptions and the interpreter

Every modelled function that can raise returns `Except Exc`.  The exceptions keep the class
the source distinguishes in its `except` clauses, and the message where a later step puts
`str(exc)` into a reason or a receipt.

`Runtime` collects what the program takes from the interpreter it runs on: the Unicode tables,
the nesting depths at which the two JSON directions raise `RecursionError`, and two renderings
that reach a message and are always plain text.
-/

namespace AgentOrch

open Py

inductive Exc
  | controllerError (message : Text)
  | profileError (message : Text)
  | executionConfigError (message : Text)
  | envelopeError (message : Text)
  | convergenceError (message : Text)
  | boundaryMetadataError (message : Text)
  | jsonDecodeError (message : Text)
  | unicodeDecodeError
  | unicodeEncodeError
  | valueError (message : Text)
  | typeError (message : Text)
  | attributeError (message : Text)
  | keyError (message : Text)
  | overflowError
  | recursionError
  | integrityError
  | osError (message : Text)
  | trajectoryError (message : Text)
  | kanbanError (message : Text)
  | sqliteError (message : Text)
  deriving DecidableEq

namespace Exc

/-- `str(exc)`. -/
def message : Exc → Text
  | controllerError m => m
  | profileError m => m
  | executionConfigError m => m
  | envelopeError m => m
  | convergenceError m => m
  | boundaryMetadataError m => m
  | jsonDecodeError m => m
  | unicodeDecodeError => "'utf-8' codec can't decode bytes"
  | unicodeEncodeError => "'utf-8' codec can't encode characters"
  | valueError m => m
  | typeError m => m
  | attributeError m => m
  | keyError m => m
  | overflowError => "Python int too large to convert to SQLite INTEGER"
  | recursionError => "maximum recursion depth exceeded"
  | integrityError => "constraint failed"
  | osError m => m
  | trajectoryError m => m
  | kanbanError m => m
  | sqliteError m => m

/-- `isinstance(exc, ValueError)`: the two codec errors, `JSONDecodeError` and every error class
the engine derives from it. -/
def isValueError : Exc → Bool
  | profileError _ | executionConfigError _ | envelopeError _ | convergenceError _
  | boundaryMetadataError _ | jsonDecodeError _ | unicodeDecodeError | unicodeEncodeError
  | valueError _ | trajectoryError _ => true
  | _ => false

/-- What `_handle` turns into an error result: `(ControllerError, ProfileError, IPCError,
KanbanError, sqlite3.Error, OSError, KeyError, ValueError, json.JSONDecodeError)`. -/
def isHandled : Exc → Bool
  | controllerError _ | integrityError | osError _ | keyError _ | kanbanError _ | sqliteError _ =>
    true
  | e => e.isValueError

end Exc

/-! ## Steps that may raise -/

section
variable {α β : Type}

/-- `if not condition: raise exc`. -/
def require (condition : Bool) (exc : Exc) : Except Exc Unit :=
  if condition then .ok () else .error exc

@[simp] lemma require_eq_ok {condition : Bool} {exc : Exc} {u : Unit} :
    require condition exc = .ok u ↔ condition = true := by
  cases condition <;> simp [require]

lemma returned_bind {a : α} {f : α → Except Exc β} : (Except.ok a >>= f) = f a := rfl

lemma require_true_bind {exc : Exc} {f : Unit → Except Exc α} :
    (require true exc >>= f) = f () := rfl

/-- A sequence returns when its first step returns and the rest does. -/
lemma bind_eq_ok {x : Except Exc α} {f : α → Except Exc β} {b : β} :
    x >>= f = .ok b ↔ ∃ a, x = .ok a ∧ f a = .ok b := by
  cases x with
  | error e => simp [bind, Except.bind]
  | ok a => simp [bind, Except.bind]

/-- A sequence raises what its first step raises, or what the rest does. -/
lemma bind_eq_error {x : Except Exc α} {f : α → Except Exc β} {e : Exc} :
    x >>= f = .error e ↔ x = .error e ∨ ∃ a, x = .ok a ∧ f a = .error e := by
  cases x with
  | error e => simp [bind, Except.bind]
  | ok a => simp [bind, Except.bind]

end

/-- What the interpreter fixes.  `jsonErrorText` is `str` of the `JSONDecodeError` a document
raises, `floatRepr` is `repr` of a float; neither ever holds a surrogate. -/
structure Runtime where
  unicode : Unicode
  loadsDepth : ℕ
  dumpsDepth : ℕ
  jsonErrorText : Text → Text
  floatRepr : Json.Binary64 → Text
  jsonErrorText_encodable : ∀ t, Encodable (jsonErrorText t)
  floatRepr_encodable : ∀ x, Encodable (floatRepr x)

namespace Runtime

/-- An interpreter with ASCII tables, the default recursion limit and fixed renderings. -/
def standard : Runtime where
  unicode := .ascii
  loadsDepth := 990
  dumpsDepth := 330
  jsonErrorText _ := "Expecting value: line 1 column 1 (char 0)"
  floatRepr _ := "0.5"
  jsonErrorText_encodable _ := encodable_ofString _
  floatRepr_encodable _ := encodable_ofString _

/-- `json.loads(t)`, with `object_pairs_hook=_unique_object` when `unique` is set. -/
def loads (rt : Runtime) (unique : Bool) (t : Text) : Except Exc Json.Value :=
  match Json.loads ⟨rt.loadsDepth, unique⟩ t with
  | .ok v => .ok v
  | .error .decode => .error (.jsonDecodeError (rt.jsonErrorText t))
  | .error .intDigits =>
    .error (.valueError "Exceeds the limit (4300 digits) for integer string conversion")
  | .error .recursion => .error .recursionError
  | .error (.duplicateKey key) => .error (.executionConfigError ("duplicate JSON key: " ++ key))

/-- Can `json.dumps(v, ensure_ascii=False, indent=2).encode()` render the value? -/
def dumps (rt : Runtime) (v : Json.Value) : Except Exc Unit :=
  if rt.dumpsDepth < v.depth then .error .recursionError
  else if v.encodable then .ok ()
  else .error .unicodeEncodeError

end Runtime

/-! ## `repr` of a JSON value -/

def decimal (n : ℤ) : Text := Text.ofString (toString n)

mutual

def reprValue (rt : Runtime) : Json.Value → Text
  | .null => "None"
  | .bool b => if b then "True" else "False"
  | .int n => decimal n
  | .float x => rt.floatRepr x
  | .str s => repr rt.unicode s
  | .arr items => "[" ++ reprItems rt items ++ "]"
  | .obj items => "\x7b" ++ reprPairs rt items ++ "\x7d"

def reprItems (rt : Runtime) : List Json.Value → Text
  | [] => ""
  | [v] => reprValue rt v
  | v :: w :: rest => reprValue rt v ++ ", " ++ reprItems rt (w :: rest)

def reprPairs (rt : Runtime) : List (Text × Json.Value) → Text
  | [] => ""
  | [(k, v)] => repr rt.unicode k ++ ": " ++ reprValue rt v
  | (k, v) :: w :: rest => repr rt.unicode k ++ ": " ++ reprValue rt v ++ ", " ++
      reprPairs rt (w :: rest)

end

/-- `repr(d.get(key))`. -/
def reprOption (rt : Runtime) : Option Json.Value → Text
  | none => "None"
  | some v => reprValue rt v

lemma encodable_decimal (n : ℤ) : Encodable (decimal n) := encodable_ofString _

mutual

lemma encodable_reprValue (rt : Runtime) : ∀ v, Encodable (reprValue rt v)
  | .null => encodable_ofString _
  | .bool true => encodable_ofString _
  | .bool false => encodable_ofString _
  | .int n => encodable_decimal n
  | .float x => rt.floatRepr_encodable x
  | .str s => encodable_repr _ s
  | .arr items => by
      simp only [reprValue, encodable_append]
      exact ⟨⟨encodable_ofString _, encodable_reprItems rt items⟩, encodable_ofString _⟩
  | .obj items => by
      simp only [reprValue, encodable_append]
      exact ⟨⟨encodable_ofString _, encodable_reprPairs rt items⟩, encodable_ofString _⟩

lemma encodable_reprItems (rt : Runtime) : ∀ items, Encodable (reprItems rt items)
  | [] => encodable_ofString _
  | [v] => encodable_reprValue rt v
  | v :: w :: rest => by
      simp only [reprItems, encodable_append]
      exact ⟨⟨encodable_reprValue rt v, encodable_ofString _⟩, encodable_reprItems rt (w :: rest)⟩

lemma encodable_reprPairs (rt : Runtime) : ∀ items, Encodable (reprPairs rt items)
  | [] => encodable_ofString _
  | [(k, v)] => by
      simp only [reprPairs, encodable_append]
      exact ⟨⟨encodable_repr _ k, encodable_ofString _⟩, encodable_reprValue rt v⟩
  | (k, v) :: w :: rest => by
      simp only [reprPairs, encodable_append]
      exact ⟨⟨⟨⟨encodable_repr _ k, encodable_ofString _⟩, encodable_reprValue rt v⟩,
        encodable_ofString _⟩, encodable_reprPairs rt (w :: rest)⟩

end

lemma encodable_reprOption (rt : Runtime) (v : Option Json.Value) : Encodable (reprOption rt v) := by
  cases v with
  | none => exact encodable_ofString _
  | some v => exact encodable_reprValue rt v

end AgentOrch
