import AgentOrch.Framework.Dict
import Mathlib.Algebra.Ring.Int.Defs
import Mathlib.Algebra.Ring.Nat

/-!
# `json.loads`

The reader is a scanner and a pushdown machine.  The scanner cuts the text into tokens; the
machine folds the tokens into a value over an explicit stack, so its recursion is on the token
list and the nesting limit of the interpreter is the height of that stack.

`json.loads` fails in three ways that the callers tell apart: a `JSONDecodeError`, a plain
`ValueError` for an integer of more than 4300 digits, and a `RecursionError` for a value nested
too deeply.  An `object_pairs_hook` may raise as well, when it meets a repeated key.

The last section shows that reading does not depend on line ends: the newline translation of a
text-mode read changes no token.
-/

namespace AgentOrch.Json

open Py

/-! ## Values -/

/-- A binary64 value: `mantissa * 2 ^ exponent`, or one of the special values. -/
inductive Binary64
  | finite (mantissa : ℤ) (exponent : ℤ)
  | infinite (negative : Bool)
  | nan
  deriving DecidableEq

/-- `float(literal)` for the decimal `m * 10 ^ e`, rounded to nearest, ties to even. -/
def Binary64.ofDecimal (negative : Bool) (m : ℕ) (e : ℤ) : Binary64 :=
  let digits : ℤ := (Nat.toDigits 10 m).length
  if m = 0 ∨ digits + e < -330 then .finite 0 0
  else if 310 < digits + e then .infinite negative
  else
    let num := m * 10 ^ e.toNat
    let den := 10 ^ (-e).toNat
    let scale : ℤ := max (num.log2 - den.log2 - 53) (-1074)
    let at_ (k : ℤ) : ℕ × ℕ := (num * 2 ^ (-k).toNat, den * 2 ^ k.toNat)
    let k := if 2 ^ 53 ≤ (at_ scale).1 / (at_ scale).2 then scale + 1 else scale
    let (n, d) := at_ k
    let q := n / d
    let r := 2 * (n % d)
    let rounded := if d < r ∨ (r = d ∧ q % 2 = 1) then q + 1 else q
    if 2 ^ 1024 ≤ rounded * 2 ^ k.toNat then .infinite negative
    else .finite (if negative then -rounded else rounded) k

/-- `x == n` for a float and an integer. -/
def Binary64.eqInt (x : Binary64) (n : ℤ) : Bool :=
  match x with
  | .finite m e => m * 2 ^ e.toNat == n * 2 ^ (-e).toNat
  | _ => false

/-- `x == y` for two floats; a NaN is equal to nothing. -/
def Binary64.eqv : Binary64 → Binary64 → Bool
  | .finite m e, .finite m' e' =>
    m * 2 ^ e.toNat * 2 ^ (-e').toNat == m' * 2 ^ e'.toNat * 2 ^ (-e).toNat
  | .infinite negative, .infinite negative' => negative == negative'
  | _, _ => false

/-- A JSON value as `json.loads` returns it.  An object is a `dict`: its keys are distinct
and stand in insertion order. -/
inductive Value
  | null
  | bool (b : Bool)
  | int (n : ℤ)
  | float (x : Binary64)
  | str (s : Text)
  | arr (items : List Value)
  | obj (items : List (Text × Value))

mutual

/-- Every string of the value, keys included, has a UTF-8 encoding. -/
def Value.encodable : Value → Bool
  | .str s => decide (Encodable s)
  | .arr items => encodableItems items
  | .obj items => encodablePairs items
  | _ => true

def encodableItems : List Value → Bool
  | [] => true
  | v :: rest => v.encodable && encodableItems rest

def encodablePairs : List (Text × Value) → Bool
  | [] => true
  | (k, v) :: rest => decide (Encodable k) && v.encodable && encodablePairs rest

end

mutual

/-- How many containers are open at the deepest point of the value. -/
def Value.depth : Value → ℕ
  | .arr items => depthItems items + 1
  | .obj items => depthPairs items + 1
  | _ => 0

def depthItems : List Value → ℕ
  | [] => 0
  | v :: rest => max v.depth (depthItems rest)

def depthPairs : List (Text × Value) → ℕ
  | [] => 0
  | (_, v) :: rest => max v.depth (depthPairs rest)

end

mutual

/-- `v == w`: numbers compare by value, `True` is `1`, and an object does not mind the order of its
items. -/
def Value.eqv : Value → Value → Bool
  | .null, .null => true
  | .bool b, .bool b' => b == b'
  | .bool b, .int n | .int n, .bool b => n == if b then 1 else 0
  | .bool b, .float x | .float x, .bool b => x.eqInt (if b then 1 else 0)
  | .int n, .int n' => n == n'
  | .int n, .float x | .float x, .int n => x.eqInt n
  | .float x, .float x' => x.eqv x'
  | .str s, .str s' => s == s'
  | .arr items, .arr items' => eqvItems items items'
  | .obj items, .obj items' => items.length == items'.length && eqvPairs items items'
  | _, _ => false

def eqvItems : List Value → List Value → Bool
  | [], [] => true
  | v :: rest, w :: rest' => v.eqv w && eqvItems rest rest'
  | _, _ => false

/-- Every item is an item of the other object. -/
def eqvPairs : List (Text × Value) → List (Text × Value) → Bool
  | [], _ => true
  | (k, v) :: rest, others =>
    (match dictGet k others with
      | some w => v.eqv w
      | none => false) && eqvPairs rest others

end

/-- `bool(v)`. -/
def Value.truthy : Value → Bool
  | .null => false
  | .bool b => b
  | .int n => n != 0
  | .float x => !x.eqInt 0
  | .str s => !s.isEmpty
  | .arr items => !items.isEmpty
  | .obj items => !items.isEmpty

/-- `d.get(key)` on an object. -/
def getValue (key : Text) (items : List (Text × Value)) : Value := (dictGet key items).getD .null

/-! ## The scanner -/

/-- What `json.loads` raises. -/
inductive Error
  | decode
  | intDigits
  | recursion
  | duplicateKey (key : Text)
  deriving DecidableEq

inductive Token
  | openBrace
  | closeBrace
  | openBracket
  | closeBracket
  | comma
  | colon
  | str (s : Text)
  | atom (v : Value)
  | bad (e : Error)

/-- JSON white space, which is narrower than `str.isspace`. -/
def isJsonSpace (c : CodePoint) : Bool := c == 0x20 || c == 0x09 || c == 0x0A || c == 0x0D

def skipSpace (t : Text) : Text := t.dropWhile isJsonSpace

/-- The rest of the text after the literal `p`. -/
def stripPrefix (p t : Text) : Option Text :=
  if p.isPrefixOf t then some (t.drop p.length) else none

/-- One character of a string literal: a `\u` escape is kept apart, since only two adjacent
escapes join into one supplementary character. -/
inductive Piece
  | plain (c : CodePoint)
  | escaped (v : ℕ)

/-- Where the scanner stands inside a string literal. -/
inductive StringState
  | normal
  | escape
  | hex (left acc : ℕ)

def hexDigit (c : CodePoint) : Option ℕ :=
  let n := c.val
  if 0x30 ≤ n ∧ n ≤ 0x39 then some (n - 0x30)
  else if 0x61 ≤ n ∧ n ≤ 0x66 then some (n - 0x57)
  else if 0x41 ≤ n ∧ n ≤ 0x46 then some (n - 0x37)
  else none

/-- The characters `"\/bfnrt` name after a backslash. -/
def simpleEscape (c : CodePoint) : Option CodePoint :=
  if c = 0x22 ∨ c = 0x5C ∨ c = 0x2F then some c
  else if c = 0x62 then some 0x08
  else if c = 0x66 then some 0x0C
  else if c = 0x6E then some 0x0A
  else if c = 0x72 then some 0x0D
  else if c = 0x74 then some 0x09
  else none

/-- The pieces of a string literal up to its closing quote, and the text after it.  Strict
mode refuses a raw control character. -/
def scanPieces : StringState → Text → Option (List Piece × Text)
  | _, [] => none
  | .normal, c :: t =>
    if c = 0x22 then some ([], t)
    else if c = 0x5C then scanPieces .escape t
    else if c.val < 0x20 then none
    else (scanPieces .normal t).map fun (ps, rest) => (.plain c :: ps, rest)
  | .escape, c :: t =>
    if c = 0x75 then scanPieces (.hex 4 0) t
    else match simpleEscape c with
      | none => none
      | some d => (scanPieces .normal t).map fun (ps, rest) => (.plain d :: ps, rest)
  | .hex left acc, c :: t =>
    match hexDigit c with
    | none => none
    | some d =>
      let acc := acc * 16 + d
      if left ≤ 1 then (scanPieces .normal t).map fun (ps, rest) => (.escaped acc :: ps, rest)
      else scanPieces (.hex (left - 1) acc) t

def isHighSurrogate (v : ℕ) : Bool := 0xD800 ≤ v && v ≤ 0xDBFF

def isLowSurrogate (v : ℕ) : Bool := 0xDC00 ≤ v && v ≤ 0xDFFF

/-- The text of the pieces; `pending` is an escaped high surrogate that joins with an escaped
low one right after it, and stays alone otherwise. -/
def joinFrom : Option ℕ → List Piece → Text
  | pending, [] => pending.toList.map (Fin.ofNat _)
  | pending, .plain c :: rest => pending.toList.map (Fin.ofNat _) ++ c :: joinFrom none rest
  | none, .escaped v :: rest =>
    if isHighSurrogate v then joinFrom (some v) rest else Fin.ofNat _ v :: joinFrom none rest
  | some u, .escaped v :: rest =>
    if isLowSurrogate v then
      Fin.ofNat _ (0x10000 + (u - 0xD800) * 0x400 + (v - 0xDC00)) :: joinFrom none rest
    else Fin.ofNat _ u ::
      if isHighSurrogate v then joinFrom (some v) rest else Fin.ofNat _ v :: joinFrom none rest

def digitsValue (ds : Text) : ℕ := ds.foldl (fun acc d => acc * 10 + (d.val - 0x30)) 0

/-- The longest integer literal `int` converts. -/
def maxIntDigits : ℕ := 4300

/-- `(\.[0-9]+)?` and what follows it. -/
def scanFraction (t : Text) : Text × Text :=
  match stripPrefix "." t with
  | none => ([], t)
  | some t' =>
    if (t'.takeWhile isAsciiDigit).isEmpty then ([], t)
    else (t'.takeWhile isAsciiDigit, t'.dropWhile isAsciiDigit)

/-- `[-+]?[0-9]+`, its sign first. -/
def scanSigned (t : Text) : Option (Bool × Text × Text) :=
  let (negative, t') :=
    match stripPrefix "-" t with
    | some t' => (true, t')
    | none => (false, (stripPrefix "+" t).getD t)
  if (t'.takeWhile isAsciiDigit).isEmpty then none
  else some (negative, t'.takeWhile isAsciiDigit, t'.dropWhile isAsciiDigit)

/-- `([eE][-+]?[0-9]+)?` and what follows it. -/
def scanExponent (t : Text) : Option (Bool × Text) × Text :=
  match (stripPrefix "e" t).orElse fun _ => stripPrefix "E" t with
  | none => (none, t)
  | some t' =>
    match scanSigned t' with
    | none => (none, t)
    | some (negative, digits, rest) => (some (negative, digits), rest)

/-- A number literal without its sign: `0` ends the integer part at once. -/
def scanNumber (negative : Bool) (t : Text) : Token × Text :=
  let (int, t) :=
    match stripPrefix "0" t with
    | some t' => (([0x30] : Text), t')
    | none => (t.takeWhile isAsciiDigit, t.dropWhile isAsciiDigit)
  if int.isEmpty then (.bad .decode, t)
  else
    let (fraction, t) := scanFraction t
    let (exponent, t) := scanExponent t
    if fraction.isEmpty && exponent.isNone then
      if maxIntDigits < int.length then (.bad .intDigits, t)
      else
        let n : ℤ := digitsValue int
        (.atom (.int (if negative then -n else n)), t)
    else
      let e : ℤ :=
        match exponent with
        | none => 0
        | some (neg, ds) => if neg then -(digitsValue ds : ℤ) else digitsValue ds
      (.atom (.float (.ofDecimal negative (digitsValue (int ++ fraction)) (e - fraction.length))), t)

/-- The literals that are not numbers. -/
def literals : List (Text × Value) :=
  [("null", .null), ("true", .bool true), ("false", .bool false), ("NaN", .float .nan),
    ("Infinity", .float (.infinite false)), ("-Infinity", .float (.infinite true))]

/-- The punctuation characters of JSON. -/
def punctuation (c : CodePoint) : Option Token :=
  if c = 0x7B then some .openBrace
  else if c = 0x7D then some .closeBrace
  else if c = 0x5B then some .openBracket
  else if c = 0x5D then some .closeBracket
  else if c = 0x2C then some .comma
  else if c = 0x3A then some .colon
  else none

/-- The first literal the text starts with, and the text after it. -/
def scanLiteral (t : Text) : Option (Value × Text) :=
  literals.findSome? fun p => (stripPrefix p.1 t).map fun rest => (p.2, rest)

/-- The token at the head of a text that does not start with white space. -/
def scanToken (c : CodePoint) (t : Text) : Token × Text :=
  match punctuation c with
  | some token => (token, t)
  | none =>
    if c = 0x22 then
      match scanPieces .normal t with
      | some (ps, rest) => (.str (joinFrom none ps), rest)
      | none => (.bad .decode, t)
    else match scanLiteral (c :: t) with
      | some (v, rest) => (.atom v, rest)
      | none => if c = 0x2D then scanNumber true t else scanNumber false (c :: t)

/-- The tokens of a text; the scanner stops at the first bad one. -/
def scanFrom : ℕ → Text → List Token
  | 0, _ => []
  | fuel + 1, t =>
    match skipSpace t with
    | [] => []
    | c :: t =>
      match scanToken c t with
      | (.bad e, _) => [.bad e]
      | (token, rest) => token :: scanFrom fuel rest

/-- Every token takes a character, so the length of the text is fuel enough. -/
def scan (t : Text) : List Token := scanFrom t.length t

/-! ## The machine -/

/-- A container begun and not closed: what it holds so far, last item first. -/
inductive Frame
  | array (items : List Value)
  | object (items : List (Text × Value)) (key : Text)

/-- What the machine expects next. -/
inductive Mode
  | value
  | valueOrClose
  | key (items : List (Text × Value))
  | keyOrClose
  | colon (items : List (Text × Value)) (key : Text)
  | after (v : Value)

/-- The options of one `json.loads` call: the nesting limit of the interpreter, and whether
an `object_pairs_hook` refuses repeated keys. -/
structure Options where
  nesting : ℕ
  uniqueKeys : Bool

/-- What closing an object yields: `dict(pairs)`, or the hook's refusal. -/
def closeObject (o : Options) (pairs : List (Text × Value)) : Except Error Value :=
  match (if o.uniqueKeys then firstRepeated [] pairs else none) with
  | some key => .error (.duplicateKey key)
  | none => .ok (.obj (dictOf pairs))
where
  /-- The first key that occurs a second time. -/
  firstRepeated (seen : List Text) : List (Text × Value) → Option Text
    | [] => none
    | (k, _) :: rest => if k ∈ seen then some k else firstRepeated (k :: seen) rest

/-- The machine, one token at a time. -/
def run (o : Options) : Mode → List Frame → List Token → Except Error Value
  | .after v, [], [] => .ok v
  | _, _, [] => .error .decode
  | mode, stack, token :: rest =>
    match mode, stack, token with
    | .value, _, .str s => run o (.after (.str s)) stack rest
    | .valueOrClose, _, .str s => run o (.after (.str s)) stack rest
    | .value, _, .atom v => run o (.after v) stack rest
    | .valueOrClose, _, .atom v => run o (.after v) stack rest
    | .value, _, .openBracket =>
      if o.nesting ≤ stack.length then .error .recursion
      else run o .valueOrClose (.array [] :: stack) rest
    | .valueOrClose, _, .openBracket =>
      if o.nesting ≤ stack.length then .error .recursion
      else run o .valueOrClose (.array [] :: stack) rest
    | .value, _, .openBrace =>
      if o.nesting ≤ stack.length then .error .recursion
      else run o .keyOrClose stack rest
    | .valueOrClose, _, .openBrace =>
      if o.nesting ≤ stack.length then .error .recursion
      else run o .keyOrClose stack rest
    | .valueOrClose, .array items :: below, .closeBracket =>
      run o (.after (.arr items.reverse)) below rest
    | .value, _, .bad e => .error e
    | .valueOrClose, _, .bad e => .error e
    | .keyOrClose, _, .closeBrace => run o (.after (.obj [])) stack rest
    | .keyOrClose, _, .str k => run o (.colon [] k) stack rest
    | .key items, _, .str k => run o (.colon items k) stack rest
    | .colon items k, _, .colon => run o .value (.object items k :: stack) rest
    | .after v, .array items :: below, .comma => run o .value (.array (v :: items) :: below) rest
    | .after v, .array items :: below, .closeBracket =>
      run o (.after (.arr (v :: items).reverse)) below rest
    | .after v, .object items k :: below, .comma => run o (.key ((k, v) :: items)) below rest
    | .after v, .object items k :: below, .closeBrace =>
      match closeObject o ((k, v) :: items).reverse with
      | .ok w => run o (.after w) below rest
      | .error e => .error e
    | _, _, _ => .error .decode

/-- `json.loads(text)`. -/
def loads (o : Options) (t : Text) : Except Error Value := run o .value [] (scan t)

/-! ## Fuel

`scanFrom` is given the length of the text.  Every token that is not bad leaves a shorter
text, so more fuel changes nothing. -/

lemma stripPrefix_length {p t rest : Text} (h : stripPrefix p t = some rest) :
    rest.length + p.length = t.length := by
  simp only [stripPrefix, Option.ite_none_right_eq_some, Option.some.injEq] at h
  obtain ⟨hp, rfl⟩ := h
  have := (List.isPrefixOf_iff_prefix.mp hp).length_le
  rw [List.length_drop]
  omega

lemma scanPieces_length {t : Text} : ∀ {st : StringState} {ps : List Piece} {rest : Text},
    scanPieces st t = some (ps, rest) → rest.length ≤ t.length := by
  induction t with
  | nil => intro st ps rest h; simp [scanPieces] at h
  | cons c t ih =>
      intro st ps rest h
      have step : ∀ {st' ps'}, scanPieces st' t = some (ps', rest) →
          rest.length ≤ (c :: t).length := fun h' => (ih h').trans (by simp)
      cases st with
      | normal =>
          simp only [scanPieces] at h
          split_ifs at h
          · obtain ⟨-, rfl⟩ := Prod.mk.injEq .. ▸ Option.some.injEq .. ▸ h
            simp
          · exact step h
          · obtain ⟨⟨ps', rest'⟩, h', heq⟩ := Option.map_eq_some_iff.mp h
            obtain ⟨-, rfl⟩ := Prod.mk.injEq .. ▸ heq
            exact step h'
      | escape =>
          simp only [scanPieces] at h
          split at h
          · exact step h
          · split at h
            · cases h
            · obtain ⟨⟨ps', rest'⟩, h', heq⟩ := Option.map_eq_some_iff.mp h
              obtain ⟨-, rfl⟩ := Prod.mk.injEq .. ▸ heq
              exact step h'
      | hex left acc =>
          simp only [scanPieces] at h
          split at h
          · cases h
          · split at h
            · obtain ⟨⟨ps', rest'⟩, h', heq⟩ := Option.map_eq_some_iff.mp h
              obtain ⟨-, rfl⟩ := Prod.mk.injEq .. ▸ heq
              exact step h'
            · exact step h

lemma dropWhile_length_le {α : Type} (p : α → Bool) (t : List α) :
    (t.dropWhile p).length ≤ t.length :=
  (List.dropWhile_suffix p).length_le

lemma scanFraction_length (t : Text) : (scanFraction t).2.length ≤ t.length := by
  simp only [scanFraction]
  split
  · exact le_rfl
  · next t' h =>
    have := stripPrefix_length h
    have := dropWhile_length_le isAsciiDigit t'
    split
    · exact le_rfl
    · simp only
      omega

lemma scanSigned_length {t digits rest : Text} {negative : Bool}
    (h : scanSigned t = some (negative, digits, rest)) : rest.length ≤ t.length := by
  have key : ∀ t' : Text, t'.length ≤ t.length → (t'.dropWhile isAsciiDigit).length ≤ t.length :=
    fun t' h' => (dropWhile_length_le _ t').trans h'
  simp only [scanSigned] at h
  split at h
  · next t' ht =>
    split at h
    · cases h
    · simp only [Option.some.injEq, Prod.mk.injEq] at h
      have := stripPrefix_length ht
      exact h.2.2 ▸ key t' (by omega)
  · split at h
    · cases h
    · simp only [Option.some.injEq, Prod.mk.injEq] at h
      refine h.2.2 ▸ key _ ?_
      cases ht : stripPrefix "+" t with
      | none => exact le_rfl
      | some t' => have := stripPrefix_length ht; simp; omega

lemma scanExponent_length (t : Text) : (scanExponent t).2.length ≤ t.length := by
  have key : ∀ t' : Text, t'.length ≤ t.length →
      (match scanSigned t' with
        | none => (none, t)
        | some (negative, digits, rest) => (some (negative, digits), rest)
        : Option (Bool × Text) × Text).2.length ≤ t.length := by
    intro t' h'
    split
    · exact le_rfl
    · next h => exact (scanSigned_length h).trans h'
  simp only [scanExponent]
  split
  · exact le_rfl
  · next t' h =>
    refine key t' ?_
    cases he : stripPrefix "e" t with
    | some u =>
        simp only [he, Option.orElse_some, Option.some.injEq] at h
        have := stripPrefix_length he
        subst h
        omega
    | none =>
        simp only [he, Option.orElse_none] at h
        have := stripPrefix_length h
        omega

/-- A number literal that is not refused takes at least one character. -/
lemma scanNumber_length {negative : Bool} {t rest : Text} {token : Token}
    (h : scanNumber negative t = (token, rest)) (hbad : ∀ e, token ≠ .bad e) :
    rest.length + 1 ≤ t.length := by
  simp only [scanNumber] at h
  generalize hint : (match stripPrefix "0" t with
    | some t' => (([0x30] : Text), t')
    | none => (t.takeWhile isAsciiDigit, t.dropWhile isAsciiDigit)) = it at h
  obtain ⟨int, t1⟩ := it
  have ht1 : int ≠ [] → t1.length + 1 ≤ t.length := by
    intro hne
    split at hint
    · next t' h' =>
      have := stripPrefix_length h'
      obtain ⟨-, rfl⟩ := Prod.mk.injEq .. ▸ hint
      exact this.le
    · obtain ⟨rfl, rfl⟩ := Prod.mk.injEq .. ▸ hint
      have hsum := congrArg List.length (List.takeWhile_append_dropWhile (p := isAsciiDigit) (l := t))
      rw [List.length_append] at hsum
      have := List.length_pos_of_ne_nil hne
      omega
  have hfrac := scanFraction_length t1
  have hexp := scanExponent_length (scanFraction t1).2
  split_ifs at h with h1 h2 h3
  · exact absurd (Prod.ext_iff.mp h).1.symm (hbad _)
  · exact absurd (Prod.ext_iff.mp h).1.symm (hbad _)
  all_goals
    have hne := ht1 (by simpa using h1)
    have := (Prod.ext_iff.mp h).2
    simp only at this
    subst this
    omega

lemma scanLiteral_length {t rest : Text} {v : Value} (h : scanLiteral t = some (v, rest)) :
    rest.length + 1 ≤ t.length := by
  obtain ⟨p, hp, hstrip⟩ := List.exists_of_findSome?_eq_some h
  obtain ⟨rest', hrest, heq⟩ := Option.map_eq_some_iff.mp hstrip
  obtain ⟨-, rfl⟩ := Prod.mk.injEq .. ▸ heq
  have hlen := stripPrefix_length hrest
  have hpos : ∀ q ∈ literals, 1 ≤ q.1.length := by decide
  have := hpos p hp
  omega

lemma scanToken_length {c : CodePoint} {t rest : Text} {token : Token}
    (h : scanToken c t = (token, rest)) (hbad : ∀ e, token ≠ .bad e) :
    rest.length ≤ t.length := by
  simp only [scanToken] at h
  split at h
  · obtain ⟨-, rfl⟩ := Prod.mk.injEq .. ▸ h
    exact le_rfl
  · split at h
    · split at h
      · next hp =>
        obtain ⟨-, rfl⟩ := Prod.mk.injEq .. ▸ h
        exact scanPieces_length hp
      · exact absurd (Prod.ext_iff.mp h).1.symm (hbad _)
    · split at h
      · next hl =>
        have := scanLiteral_length hl
        obtain ⟨-, rfl⟩ := Prod.mk.injEq .. ▸ h
        simpa using this
      · split at h
        · have := scanNumber_length h hbad
          omega
        · simpa using scanNumber_length h hbad

lemma scanFrom_of_le {n : ℕ} : ∀ {t : Text}, t.length ≤ n → scanFrom n t = scan t := by
  suffices key : ∀ n m : ℕ, ∀ t : Text, t.length ≤ n → t.length ≤ m →
      scanFrom n t = scanFrom m t from fun {t} h => key n _ t h le_rfl
  intro n
  induction n with
  | zero =>
      intro m t hn _
      obtain rfl : t = [] := List.length_eq_zero_iff.mp (by omega)
      cases m <;> simp [scanFrom, skipSpace]
  | succ n ih =>
      intro m t hn hm
      cases m with
      | zero =>
          obtain rfl : t = [] := List.length_eq_zero_iff.mp (by omega)
          simp [scanFrom, skipSpace]
      | succ m =>
          have hskip := dropWhile_length_le isJsonSpace t
          simp only [scanFrom]
          cases hs : skipSpace t with
          | nil => rfl
          | cons c u =>
              simp only
              have hu : u.length + 1 ≤ t.length := by
                rw [skipSpace] at hs
                rw [hs] at hskip
                simpa using hskip
              cases htok : scanToken c u with
              | mk token rest =>
                  cases token with
                  | bad e => rfl
                  | _ =>
                      have := scanToken_length htok (by simp)
                      simp only
                      rw [ih m rest (by omega) (by omega)]

/-! ## Reading does not depend on line ends -/

section NewlineTranslation

variable {p : CodePoint → Bool}

lemma takeWhile_newlinesFrom (hcr : p 0x0D = false) (hlf : p 0x0A = false) (t : Text) :
    (newlinesFrom false t).takeWhile p = t.takeWhile p := by
  induction t with
  | nil => rfl
  | cons c t ih =>
      by_cases h1 : c = 0x0D
      · subst h1; simp [hcr, hlf]
      by_cases h2 : c = 0x0A
      · subst h2; simp [hlf]
      rw [newlinesFrom_cons h1 h2]
      simp only [List.takeWhile_cons, ih]

lemma dropWhile_newlinesFrom (hcr : p 0x0D = false) (hlf : p 0x0A = false) (t : Text) :
    (newlinesFrom false t).dropWhile p = newlinesFrom false (t.dropWhile p) := by
  induction t with
  | nil => rfl
  | cons c t ih =>
      by_cases h1 : c = 0x0D
      · subst h1; simp [hcr, hlf]
      by_cases h2 : c = 0x0A
      · subst h2; simp [hlf]
      rw [newlinesFrom_cons h1 h2]
      simp only [List.dropWhile_cons, ih]
      split
      · rfl
      · rw [newlinesFrom_cons h1 h2]

lemma skipSpace_newlinesFrom (t : Text) :
    ∀ b, skipSpace (newlinesFrom b t) = newlinesFrom false (skipSpace t) := by
  induction t with
  | nil => intro b; rfl
  | cons c t ih =>
      intro b
      by_cases h1 : c = 0x0D
      · subst h1
        simpa [skipSpace, isJsonSpace] using ih true
      by_cases h2 : c = 0x0A
      · subst h2
        cases b <;> simpa [skipSpace, isJsonSpace, newlinesFrom] using ih false
      rw [newlinesFrom_cons h1 h2]
      by_cases hc : isJsonSpace c
      · simpa [skipSpace, hc] using ih false
      · simp [skipSpace, hc, newlinesFrom_cons h1 h2]

lemma stripPrefix_newlinesFrom {q : Text} (hq : LineFree q) (t : Text) :
    stripPrefix q (newlinesFrom false t) = (stripPrefix q t).map (newlinesFrom false) := by
  simp only [stripPrefix, isPrefixOf_newlinesFrom hq]
  split
  · next h =>
    obtain ⟨rest, rfl⟩ := List.isPrefixOf_iff_prefix.mp h
    simp [newlinesFrom_append hq]
  · rfl

/-- A string literal holds no raw line end, whatever the scanner is doing. -/
lemma scanPieces_lineEnd {c : CodePoint} (hc : c = 0x0D ∨ c = 0x0A) (st : StringState) (t : Text) :
    scanPieces st (c :: t) = none := by
  have hcontrol : c.val < 0x20 := by rcases hc with rfl | rfl <;> decide
  have hquote : c ≠ 0x22 := by rcases hc with rfl | rfl <;> decide
  have hback : c ≠ 0x5C := by rcases hc with rfl | rfl <;> decide
  have hu : c ≠ 0x75 := by rcases hc with rfl | rfl <;> decide
  have hsimple : simpleEscape c = none := by rcases hc with rfl | rfl <;> decide
  have hhex : hexDigit c = none := by rcases hc with rfl | rfl <;> decide
  cases st <;> simp [scanPieces, *]

lemma scanPieces_newlinesFrom (t : Text) : ∀ st, scanPieces st (newlinesFrom false t) =
    (scanPieces st t).map fun r => (r.1, newlinesFrom false r.2) := by
  induction t with
  | nil => intro st; simp [scanPieces]
  | cons c t ih =>
      intro st
      by_cases h1 : c = 0x0D
      · subst h1
        rw [newlinesFrom_cr, scanPieces_lineEnd (.inr rfl), scanPieces_lineEnd (.inl rfl)]
        rfl
      by_cases h2 : c = 0x0A
      · subst h2
        rw [newlinesFrom_lf, scanPieces_lineEnd (.inr rfl), scanPieces_lineEnd (.inr rfl)]
        rfl
      rw [newlinesFrom_cons h1 h2]
      cases st with
      | normal =>
          simp only [scanPieces, ih]
          split_ifs <;> simp [Function.comp_def]
      | escape =>
          simp only [scanPieces, ih]
          split_ifs
          · rfl
          · cases simpleEscape c <;> simp [Function.comp_def]
      | hex left acc =>
          simp only [scanPieces, ih]
          cases hexDigit c with
          | none => rfl
          | some d => simp only; split_ifs <;> simp [Function.comp_def]

private lemma digit_cr : isAsciiDigit 0x0D = false := by decide

private lemma digit_lf : isAsciiDigit 0x0A = false := by decide

lemma scanFraction_newlinesFrom (t : Text) : scanFraction (newlinesFrom false t) =
    ((scanFraction t).1, newlinesFrom false (scanFraction t).2) := by
  have hdot : LineFree ("." : Text) := by decide
  simp only [scanFraction, stripPrefix_newlinesFrom hdot]
  cases stripPrefix "." t with
  | none => rfl
  | some t' =>
      simp only [Option.map_some, takeWhile_newlinesFrom digit_cr digit_lf,
        dropWhile_newlinesFrom digit_cr digit_lf]
      split <;> rfl

lemma scanSigned_newlinesFrom (t : Text) : scanSigned (newlinesFrom false t) =
    (scanSigned t).map fun r => (r.1, r.2.1, newlinesFrom false r.2.2) := by
  have hminus : LineFree ("-" : Text) := by decide
  have hplus : LineFree ("+" : Text) := by decide
  simp only [scanSigned, stripPrefix_newlinesFrom hminus, stripPrefix_newlinesFrom hplus]
  have digits : ∀ (negative : Bool) (u : Text),
      (if ((newlinesFrom false u).takeWhile isAsciiDigit).isEmpty then none
        else some (negative, (newlinesFrom false u).takeWhile isAsciiDigit,
          (newlinesFrom false u).dropWhile isAsciiDigit)) =
      (if (u.takeWhile isAsciiDigit).isEmpty then none
        else some (negative, u.takeWhile isAsciiDigit, u.dropWhile isAsciiDigit)).map
          fun r => (r.1, r.2.1, newlinesFrom false r.2.2) := by
    intro negative u
    simp only [takeWhile_newlinesFrom digit_cr digit_lf,
      dropWhile_newlinesFrom digit_cr digit_lf]
    split <;> rfl
  cases stripPrefix "-" t with
  | some u => exact digits true u
  | none =>
      cases stripPrefix "+" t with
      | none => exact digits false t
      | some u => exact digits false u

lemma scanExponent_newlinesFrom (t : Text) : scanExponent (newlinesFrom false t) =
    ((scanExponent t).1, newlinesFrom false (scanExponent t).2) := by
  have he : LineFree ("e" : Text) := by decide
  have hE : LineFree ("E" : Text) := by decide
  have tail : ∀ u : Text,
      (match scanSigned (newlinesFrom false u) with
        | none => (none, newlinesFrom false t)
        | some (negative, digits, rest) => (some (negative, digits), rest)
        : Option (Bool × Text) × Text) =
      ((match scanSigned u with
        | none => (none, t)
        | some (negative, digits, rest) => (some (negative, digits), rest)
        : Option (Bool × Text) × Text).1,
        newlinesFrom false (match scanSigned u with
        | none => (none, t)
        | some (negative, digits, rest) => (some (negative, digits), rest)
        : Option (Bool × Text) × Text).2) := by
    intro u
    rw [scanSigned_newlinesFrom]
    cases scanSigned u <;> rfl
  simp only [scanExponent, stripPrefix_newlinesFrom he, stripPrefix_newlinesFrom hE]
  cases stripPrefix "e" t with
  | some u => exact tail u
  | none =>
      cases stripPrefix "E" t with
      | none => rfl
      | some u => exact tail u

lemma scanNumber_newlinesFrom (negative : Bool) (t : Text) :
    scanNumber negative (newlinesFrom false t) =
      ((scanNumber negative t).1, newlinesFrom false (scanNumber negative t).2) := by
  have hzero : LineFree ("0" : Text) := by decide
  simp only [scanNumber, stripPrefix_newlinesFrom hzero]
  cases stripPrefix "0" t with
  | none =>
      simp only [Option.map_none, takeWhile_newlinesFrom digit_cr digit_lf,
        dropWhile_newlinesFrom digit_cr digit_lf, scanFraction_newlinesFrom,
        scanExponent_newlinesFrom]
      split_ifs <;> rfl
  | some u =>
      simp only [Option.map_some, scanFraction_newlinesFrom, scanExponent_newlinesFrom]
      split_ifs <;> rfl

lemma scanLiteral_newlinesFrom (t : Text) : scanLiteral (newlinesFrom false t) =
    (scanLiteral t).map fun r => (r.1, newlinesFrom false r.2) := by
  have hfree : ∀ q ∈ literals, LineFree q.1 := by decide
  simp only [scanLiteral]
  generalize literals = table at hfree
  induction table with
  | nil => rfl
  | cons q table ih =>
      have hq := hfree q List.mem_cons_self
      have ih := ih fun r hr => hfree r (List.mem_cons_of_mem _ hr)
      simp only [List.findSome?_cons, stripPrefix_newlinesFrom hq]
      cases stripPrefix q.1 t with
      | none => simpa using ih
      | some u => rfl

lemma scanToken_newlinesFrom {c : CodePoint} (hcr : c ≠ 0x0D) (hlf : c ≠ 0x0A) (t : Text) :
    scanToken c (newlinesFrom false t) =
      ((scanToken c t).1, newlinesFrom false (scanToken c t).2) := by
  simp only [scanToken]
  cases punctuation c with
  | some token => rfl
  | none =>
      simp only
      split_ifs with hquote hminus
      · rw [scanPieces_newlinesFrom]
        cases scanPieces .normal t <;> rfl
      · rw [← newlinesFrom_cons hcr hlf false t, scanLiteral_newlinesFrom]
        cases scanLiteral (c :: t) with
        | none => exact scanNumber_newlinesFrom true t
        | some r => rfl
      · rw [← newlinesFrom_cons hcr hlf false t, scanLiteral_newlinesFrom]
        cases scanLiteral (c :: t) with
        | none => exact scanNumber_newlinesFrom false (c :: t)
        | some r => rfl

lemma scanFrom_newlinesFrom (n : ℕ) :
    ∀ (t : Text) (b : Bool), scanFrom n (newlinesFrom b t) = scanFrom n t := by
  induction n with
  | zero => intro t b; rfl
  | succ n ih =>
      intro t b
      simp only [scanFrom, skipSpace_newlinesFrom]
      cases hs : skipSpace t with
      | nil => rfl
      | cons c u =>
          have hc : isJsonSpace c = false := by
            have := List.head?_dropWhile_not isJsonSpace t
            rw [skipSpace] at hs
            simpa [hs] using this
          have hcr : c ≠ 0x0D := by rintro rfl; simp [isJsonSpace] at hc
          have hlf : c ≠ 0x0A := by rintro rfl; simp [isJsonSpace] at hc
          rw [newlinesFrom_cons hcr hlf]
          simp only [scanToken_newlinesFrom hcr hlf]
          cases scanToken c u with
          | mk token rest => cases token <;> simp [ih]

lemma newlinesFrom_length_le (t : Text) : ∀ b, (newlinesFrom b t).length ≤ t.length := by
  induction t with
  | nil => intro b; simp
  | cons c t ih =>
      intro b
      simp only [newlinesFrom]
      split_ifs
      · simpa using ih true
      · exact (ih false).trans (by simp)
      · simpa using ih false

/-- The newline translation changes no token of a JSON text. -/
theorem scan_universalNewlines (t : Text) : scan (universalNewlines t) = scan t := by
  rw [universalNewlines, ← scanFrom_of_le (newlinesFrom_length_le t false), scanFrom_newlinesFrom]
  rfl

theorem loads_universalNewlines (o : Options) (t : Text) :
    loads o (universalNewlines t) = loads o t := by
  rw [loads, loads, scan_universalNewlines]

end NewlineTranslation

end AgentOrch.Json
