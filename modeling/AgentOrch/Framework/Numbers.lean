import AgentOrch.Framework.Json
import AgentOrch.Framework.Unicode

/-!
# `int` and `float` of a text

The two constructors read more than JSON does: digits of any script, single underscores between
digits, a plus sign, leading zeros, and the names of the special floats in any case.  Texts come
without white space around them.
-/

namespace AgentOrch.Py

open Json

/-- The text without the underscores that stand between two digits. -/
def ungroupedFrom (u : Unicode) (afterDigit : Bool) : Text → Text
  | [] => []
  | c :: t =>
    if c = 0x5F ∧ afterDigit = true ∧ (t.head?.any fun d => (u.decimal d).isSome) = true then
      ungroupedFrom u false t
    else c :: ungroupedFrom u (u.decimal c).isSome t

/-- A digit of any script as an ASCII digit. -/
def asciiDigit (u : Unicode) (c : CodePoint) : CodePoint :=
  match u.decimal c with
  | some d => Fin.ofNat _ (0x30 + d)
  | none => c

/-- The literal both constructors go on with, and whether a minus sign stood before it. -/
def numericLiteral (u : Unicode) (t : Text) : Bool × Text :=
  let literal := (ungroupedFrom u false t).map (asciiDigit u)
  match stripPrefix "-" literal with
  | some rest => (true, rest)
  | none => (false, (stripPrefix "+" literal).getD literal)

/-- `int(t)`, where it does not raise. -/
def intOf (u : Unicode) (t : Text) : Option ℤ :=
  let (negative, digits) := numericLiteral u t
  if digits.isEmpty || !digits.all isAsciiDigit || decide (maxIntDigits < digits.length) then none
  else some (if negative then -(digitsValue digits : ℤ) else digitsValue digits)

def asciiLower (c : CodePoint) : CodePoint :=
  if 0x41 ≤ c.val ∧ c.val ≤ 0x5A then Fin.ofNat _ (c.val + 0x20) else c

/-- `float(t)`, where it does not raise. -/
def floatOf (u : Unicode) (t : Text) : Option Binary64 :=
  let (negative, literal) := numericLiteral u t
  let name := literal.map asciiLower
  if name = "inf" ∨ name = "infinity" then some (.infinite negative)
  else if name = "nan" then some .nan
  else
    let int := literal.takeWhile isAsciiDigit
    let rest := literal.dropWhile isAsciiDigit
    let (fraction, rest) := match stripPrefix "." rest with
      | none => (([] : Text), rest)
      | some rest => (rest.takeWhile isAsciiDigit, rest.dropWhile isAsciiDigit)
    let (exponent, rest) := scanExponent rest
    if (int.isEmpty && fraction.isEmpty) || !rest.isEmpty then none
    else
      let e : ℤ := match exponent with
        | none => 0
        | some (negative, digits) =>
          if negative then -(digitsValue digits : ℤ) else digitsValue digits
      some (.ofDecimal negative (digitsValue (int ++ fraction)) (e - fraction.length))

end AgentOrch.Py
