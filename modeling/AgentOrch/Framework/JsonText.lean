import AgentOrch.Framework.Json
import AgentOrch.Framework.Unicode
import Mathlib.Data.List.Sort

/-!
# `json.dumps`

The compact writer: no white space, characters outside ASCII left as they are, object keys sorted
on demand.  A value it can write reads back as itself: the scanner cuts the text into the tokens of
the value (`scan_compact`), and the machine folds those tokens into the value again (`run_tokens`).

The writer refuses a value nested too deeply and an integer of more than 4300 digits, as the reader
does, and a float that is no number.
-/

namespace AgentOrch.Json

open Py

/-! ## The text of a value -/

/-- One character inside a string literal. -/
def escapeChar (c : CodePoint) : Text :=
  if c = 0x22 ∨ c = 0x5C then [0x5C, c]
  else if c = 0x08 then [0x5C, 0x62]
  else if c = 0x0C then [0x5C, 0x66]
  else if c = 0x0A then [0x5C, 0x6E]
  else if c = 0x0D then [0x5C, 0x72]
  else if c = 0x09 then [0x5C, 0x74]
  else if c.val < 0x20 then 0x5C :: 0x75 :: hexText 4 c.val
  else [c]

/-- The characters of a string literal after its opening quote. -/
def escaped (s : Text) : Text := s.flatMap escapeChar ++ [0x22]

/-- A natural number in decimal. -/
def natText (n : ℕ) : Text := (Nat.toDigits 10 n).map fun c => Fin.ofNat _ c.toNat

/-- `int.__repr__`. -/
def intText (n : ℤ) : Text := if n < 0 then 0x2D :: natText n.natAbs else natText n.natAbs

mutual

/-- The text of a value; `floatText` renders the floats. -/
def Value.compact (floatText : Binary64 → Text) : Value → Text
  | .null => "null"
  | .bool true => "true"
  | .bool false => "false"
  | .int n => intText n
  | .float x => floatText x
  | .str s => 0x22 :: escaped s
  | .arr [] => [0x5B, 0x5D]
  | .arr (v :: rest) => 0x5B :: v.compact floatText ++ compactItems floatText rest ++ [0x5D]
  | .obj [] => [0x7B, 0x7D]
  | .obj ((k, v) :: rest) =>
    0x7B :: 0x22 :: escaped k ++ 0x3A :: v.compact floatText ++ compactPairs floatText rest ++ [0x7D]

/-- The items after the first. -/
def compactItems (floatText : Binary64 → Text) : List Value → Text
  | [] => []
  | v :: rest => 0x2C :: v.compact floatText ++ compactItems floatText rest

def compactPairs (floatText : Binary64 → Text) : List (Text × Value) → Text
  | [] => []
  | (k, v) :: rest =>
    0x2C :: 0x22 :: escaped k ++ 0x3A :: v.compact floatText ++ compactPairs floatText rest

end

mutual

/-- The text of a value, with the same white space after every comma and colon. -/
def Value.written (pad : Text) (floatText : Binary64 → Text) : Value → Text
  | .null => "null"
  | .bool true => "true"
  | .bool false => "false"
  | .int n => intText n
  | .float x => floatText x
  | .str s => 0x22 :: escaped s
  | .arr [] => [0x5B, 0x5D]
  | .arr (v :: rest) =>
    0x5B :: v.written pad floatText ++ writtenItems pad floatText rest ++ [0x5D]
  | .obj [] => [0x7B, 0x7D]
  | .obj ((k, v) :: rest) =>
    0x7B :: 0x22 :: escaped k ++ 0x3A :: pad ++ v.written pad floatText ++
      writtenPairs pad floatText rest ++ [0x7D]

def writtenItems (pad : Text) (floatText : Binary64 → Text) : List Value → Text
  | [] => []
  | v :: rest => 0x2C :: pad ++ v.written pad floatText ++ writtenItems pad floatText rest

def writtenPairs (pad : Text) (floatText : Binary64 → Text) : List (Text × Value) → Text
  | [] => []
  | (k, v) :: rest =>
    0x2C :: pad ++ 0x22 :: escaped k ++ 0x3A :: pad ++ v.written pad floatText ++
      writtenPairs pad floatText rest

end

mutual

/-- The compact writer pads with nothing. -/
lemma compact_eq_written (floatText : Binary64 → Text) :
    ∀ v : Value, v.compact floatText = v.written [] floatText
  | .null => rfl
  | .bool true => rfl
  | .bool false => rfl
  | .int _ => rfl
  | .float _ => rfl
  | .str _ => rfl
  | .arr [] => rfl
  | .arr (v :: rest) => by
      simp only [Value.compact, Value.written, compact_eq_written floatText v,
        compactItems_eq_writtenItems floatText rest]
  | .obj [] => rfl
  | .obj ((k, v) :: rest) => by
      simp [Value.compact, Value.written, compact_eq_written floatText v,
        compactPairs_eq_writtenPairs floatText rest]

lemma compactItems_eq_writtenItems (floatText : Binary64 → Text) :
    ∀ items : List Value, compactItems floatText items = writtenItems [] floatText items
  | [] => rfl
  | v :: rest => by
      simp [compactItems, writtenItems, compact_eq_written floatText v,
        compactItems_eq_writtenItems floatText rest]

lemma compactPairs_eq_writtenPairs (floatText : Binary64 → Text) :
    ∀ items : List (Text × Value), compactPairs floatText items = writtenPairs [] floatText items
  | [] => rfl
  | (k, v) :: rest => by
      simp [compactPairs, writtenPairs, compact_eq_written floatText v,
        compactPairs_eq_writtenPairs floatText rest]

end

/-- The order of items by key. -/
def keyLe (p q : Text × Value) : Prop := textLe p.1 q.1 = true

instance : DecidableRel keyLe := fun p q => inferInstanceAs (Decidable (textLe p.1 q.1 = true))

instance : Std.Total keyLe := ⟨fun p q => textLe_total p.1 q.1⟩

instance : IsTrans (Text × Value) keyLe := ⟨fun _ _ _ => textLe_trans⟩

mutual

/-- The value with the keys of every object in order. -/
def Value.sortKeys : Value → Value
  | .arr items => .arr (sortItems items)
  | .obj items => .obj ((sortPairs items).insertionSort keyLe)
  | v => v

def sortItems : List Value → List Value
  | [] => []
  | v :: rest => v.sortKeys :: sortItems rest

def sortPairs : List (Text × Value) → List (Text × Value)
  | [] => []
  | (k, v) :: rest => (k, v.sortKeys) :: sortPairs rest

end

/-! ## What the writer refuses -/

/-- Why a value has no text. -/
inductive Refusal
  | depth
  | digits
  | notNumber
  deriving DecidableEq

/-- An integer `int.__repr__` and `int` both convert. -/
def shortInt (n : ℤ) : Bool := (natText n.natAbs).length ≤ maxIntDigits

mutual

/-- The first refusal, in the order of writing; `room` is how many containers may still be opened. -/
def Value.refusal (room : ℕ) : Value → Option Refusal
  | .int n => if shortInt n then none else some .digits
  | .float x => match x with
    | .finite _ _ => none
    | _ => some .notNumber
  | .arr items => if room = 0 then some .depth else refusalItems (room - 1) items
  | .obj items => if room = 0 then some .depth else refusalPairs (room - 1) items
  | _ => none

def refusalItems (room : ℕ) : List Value → Option Refusal
  | [] => none
  | v :: rest => (v.refusal room).or (refusalItems room rest)

def refusalPairs (room : ℕ) : List (Text × Value) → Option Refusal
  | [] => none
  | (_, v) :: rest => (v.refusal room).or (refusalPairs room rest)

end

mutual

/-- The first refusal of a writer that writes every float. -/
def Value.lenientRefusal (room : ℕ) : Value → Option Refusal
  | .int n => if shortInt n then none else some .digits
  | .arr items => if room = 0 then some .depth else lenientRefusalItems (room - 1) items
  | .obj items => if room = 0 then some .depth else lenientRefusalPairs (room - 1) items
  | _ => none

def lenientRefusalItems (room : ℕ) : List Value → Option Refusal
  | [] => none
  | v :: rest => (v.lenientRefusal room).or (lenientRefusalItems room rest)

def lenientRefusalPairs (room : ℕ) : List (Text × Value) → Option Refusal
  | [] => none
  | (_, v) :: rest => (v.lenientRefusal room).or (lenientRefusalPairs room rest)

end

mutual

/-- No float anywhere. -/
def Value.floatFree : Value → Bool
  | .float _ => false
  | .arr items => floatFreeItems items
  | .obj items => floatFreePairs items
  | _ => true

def floatFreeItems : List Value → Bool
  | [] => true
  | v :: rest => v.floatFree && floatFreeItems rest

def floatFreePairs : List (Text × Value) → Bool
  | [] => true
  | (_, v) :: rest => v.floatFree && floatFreePairs rest

end

mutual

/-- Every integer is one the reader converts. -/
def Value.shortInts : Value → Bool
  | .int n => shortInt n
  | .arr items => shortIntsItems items
  | .obj items => shortIntsPairs items
  | _ => true

def shortIntsItems : List Value → Bool
  | [] => true
  | v :: rest => v.shortInts && shortIntsItems rest

def shortIntsPairs : List (Text × Value) → Bool
  | [] => true
  | (_, v) :: rest => v.shortInts && shortIntsPairs rest

end

mutual

/-- The floats of a value. -/
def Value.floats : Value → List Binary64
  | .float x => [x]
  | .arr items => floatsItems items
  | .obj items => floatsPairs items
  | _ => []

def floatsItems : List Value → List Binary64
  | [] => []
  | v :: rest => v.floats ++ floatsItems rest

def floatsPairs : List (Text × Value) → List Binary64
  | [] => []
  | (_, v) :: rest => v.floats ++ floatsPairs rest

end

mutual

lemma floats_of_floatFree : ∀ {v : Value}, v.floatFree = true → v.floats = []
  | .null, _ => rfl
  | .bool _, _ => rfl
  | .int _, _ => rfl
  | .float _, h => by simp [Value.floatFree] at h
  | .str _, _ => rfl
  | .arr _, h => floatsItems_of_floatFree h
  | .obj _, h => floatsPairs_of_floatFree h

lemma floatsItems_of_floatFree : ∀ {items : List Value},
    floatFreeItems items = true → floatsItems items = []
  | [], _ => rfl
  | v :: rest, h => by
      simp only [floatFreeItems, Bool.and_eq_true] at h
      rw [floatsItems, floats_of_floatFree h.1, floatsItems_of_floatFree h.2, List.append_nil]

lemma floatsPairs_of_floatFree : ∀ {items : List (Text × Value)},
    floatFreePairs items = true → floatsPairs items = []
  | [], _ => rfl
  | (k, v) :: rest, h => by
      simp only [floatFreePairs, Bool.and_eq_true] at h
      rw [floatsPairs, floats_of_floatFree h.1, floatsPairs_of_floatFree h.2, List.append_nil]

end

mutual

lemma shortInts_of_refusal : ∀ {v : Value} {room : ℕ}, v.refusal room = none → v.shortInts = true
  | .null, _, _ => rfl
  | .bool _, _, _ => rfl
  | .int n, _, h => by simpa [Value.refusal, Value.shortInts] using h
  | .float _, _, _ => rfl
  | .str _, _, _ => rfl
  | .arr items, room, h => by
      rw [Value.refusal] at h
      split_ifs at h
      exact shortIntsItems_of_refusal h
  | .obj items, room, h => by
      rw [Value.refusal] at h
      split_ifs at h
      exact shortIntsPairs_of_refusal h

lemma shortIntsItems_of_refusal : ∀ {items : List Value} {room : ℕ},
    refusalItems room items = none → shortIntsItems items = true
  | [], _, _ => rfl
  | v :: rest, _, h => by
      simp only [refusalItems, Option.or_eq_none_iff] at h
      rw [shortIntsItems, shortInts_of_refusal h.1, shortIntsItems_of_refusal h.2, Bool.and_self]

lemma shortIntsPairs_of_refusal : ∀ {items : List (Text × Value)} {room : ℕ},
    refusalPairs room items = none → shortIntsPairs items = true
  | [], _, _ => rfl
  | (k, v) :: rest, _, h => by
      simp only [refusalPairs, Option.or_eq_none_iff] at h
      rw [shortIntsPairs, shortInts_of_refusal h.1, shortIntsPairs_of_refusal h.2, Bool.and_self]

end

mutual

lemma shortInts_of_lenientRefusal : ∀ {v : Value} {room : ℕ},
    v.lenientRefusal room = none → v.shortInts = true
  | .null, _, _ => rfl
  | .bool _, _, _ => rfl
  | .int n, _, h => by simpa [Value.lenientRefusal, Value.shortInts] using h
  | .float _, _, _ => rfl
  | .str _, _, _ => rfl
  | .arr items, room, h => by
      rw [Value.lenientRefusal] at h
      split_ifs at h
      exact shortIntsItems_of_lenientRefusal h
  | .obj items, room, h => by
      rw [Value.lenientRefusal] at h
      split_ifs at h
      exact shortIntsPairs_of_lenientRefusal h

lemma shortIntsItems_of_lenientRefusal : ∀ {items : List Value} {room : ℕ},
    lenientRefusalItems room items = none → shortIntsItems items = true
  | [], _, _ => rfl
  | v :: rest, _, h => by
      simp only [lenientRefusalItems, Option.or_eq_none_iff] at h
      rw [shortIntsItems, shortInts_of_lenientRefusal h.1, shortIntsItems_of_lenientRefusal h.2,
        Bool.and_self]

lemma shortIntsPairs_of_lenientRefusal : ∀ {items : List (Text × Value)} {room : ℕ},
    lenientRefusalPairs room items = none → shortIntsPairs items = true
  | [], _, _ => rfl
  | (k, v) :: rest, _, h => by
      simp only [lenientRefusalPairs, Option.or_eq_none_iff] at h
      rw [shortIntsPairs, shortInts_of_lenientRefusal h.1, shortIntsPairs_of_lenientRefusal h.2,
        Bool.and_self]

end

mutual

/-- The keys of every object are distinct, as those of a `dict` are. -/
def Value.wellKeyed : Value → Bool
  | .arr items => wellKeyedItems items
  | .obj items => decide (dictKeys items).Nodup && wellKeyedPairs items
  | _ => true

def wellKeyedItems : List Value → Bool
  | [] => true
  | v :: rest => v.wellKeyed && wellKeyedItems rest

def wellKeyedPairs : List (Text × Value) → Bool
  | [] => true
  | (_, v) :: rest => v.wellKeyed && wellKeyedPairs rest

end

/-- `json.dumps(v, ensure_ascii=False, sort_keys=True, separators=(",", ":"), allow_nan=False)`,
where `nesting` is the limit of the interpreter. -/
def dumps (nesting : ℕ) (floatText : Binary64 → Text) (v : Value) : Except Refusal Text :=
  match v.sortKeys.refusal nesting with
  | some e => .error e
  | none => .ok (v.sortKeys.compact floatText)

/-- `json.dumps(v, ensure_ascii=False, sort_keys=True)`, with the white space of its separators. -/
def dumpsPadded (pad : Text) (nesting : ℕ) (floatText : Binary64 → Text) (v : Value) :
    Except Refusal Text :=
  match v.sortKeys.lenientRefusal nesting with
  | some e => .error e
  | none => .ok (v.sortKeys.written pad floatText)

/-! ## The tokens of a value -/

mutual

/-- What the scanner cuts the text of a value into. -/
def Value.tokens : Value → List Token
  | .str s => [.str s]
  | .arr [] => [.openBracket, .closeBracket]
  | .arr (v :: rest) => .openBracket :: v.tokens ++ tokensItems rest ++ [.closeBracket]
  | .obj [] => [.openBrace, .closeBrace]
  | .obj ((k, v) :: rest) =>
    .openBrace :: .str k :: .colon :: v.tokens ++ tokensPairs rest ++ [.closeBrace]
  | v => [.atom v]

def tokensItems : List Value → List Token
  | [] => []
  | v :: rest => .comma :: v.tokens ++ tokensItems rest

def tokensPairs : List (Text × Value) → List Token
  | [] => []
  | (k, v) :: rest => .comma :: .str k :: .colon :: v.tokens ++ tokensPairs rest

end

/-! ## Scanning a string -/

private lemma hexDigit_hexChar {d : ℕ} (h : d < 16) : hexDigit (hexChar d) = some d := by
  have hall : ∀ d < 16, hexDigit (hexChar d) = some d := by decide
  exact hall d h

lemma scanPieces_hexText {n : ℕ} (h : n < 0x10000) (t : Text) :
    scanPieces (.hex 4 0) (hexText 4 n ++ t) =
      (scanPieces .normal t).map fun r => (.escaped n :: r.1, r.2) := by
  have hdigit : ∀ k, hexDigit (hexChar (k % 16)) = some (k % 16) :=
    fun k => hexDigit_hexChar (Nat.mod_lt _ (by decide))
  have hvalue : ((n / 16 / 16 / 16 % 16 * 16 + n / 16 / 16 % 16) * 16 + n / 16 % 16) * 16
      + n % 16 = n := by omega
  simp [hexText, scanPieces, hdigit, hvalue]

/-- A plain character stands for itself in a string literal. -/
lemma scanPieces_plain {c : CodePoint} (hquote : c ≠ 0x22) (hslash : c ≠ 0x5C)
    (hcontrol : ¬ c.val < 0x20) (t : Text) :
    scanPieces .normal (c :: t) = (scanPieces .normal t).map fun r => (.plain c :: r.1, r.2) := by
  simp only [scanPieces, if_neg hquote, if_neg hslash, if_neg hcontrol]

/-- A backslash and a letter stand for the character they name. -/
lemma scanPieces_simple {d c : CodePoint} (hu : d ≠ 0x75) (hsimple : simpleEscape d = some c)
    (t : Text) : scanPieces .normal (0x5C :: d :: t) =
      (scanPieces .normal t).map fun r => (.plain c :: r.1, r.2) := by
  have hslash : (0x5C : CodePoint) ≠ 0x22 := by decide
  simp only [scanPieces, if_neg hslash, if_true, if_neg hu, hsimple]

/-- Scanning one written character gives a piece that joins to it again. -/
lemma scanPieces_escapeChar (c : CodePoint) :
    ∃ p : Piece, (∀ ps, joinFrom none (p :: ps) = c :: joinFrom none ps) ∧
      ∀ t, scanPieces .normal (escapeChar c ++ t) =
        (scanPieces .normal t).map fun r => (p :: r.1, r.2) := by
  have hjoin : ∀ ps, joinFrom none (.plain c :: ps) = c :: joinFrom none ps := fun ps => rfl
  have named : ∀ d : CodePoint, d ≠ 0x75 → simpleEscape d = some c → escapeChar c = [0x5C, d] →
      ∃ p : Piece, (∀ ps, joinFrom none (p :: ps) = c :: joinFrom none ps) ∧
        ∀ t, scanPieces .normal (escapeChar c ++ t) =
          (scanPieces .normal t).map fun r => (p :: r.1, r.2) := by
    intro d hu hsimple hescape
    refine ⟨.plain c, hjoin, fun t => ?_⟩
    rw [hescape]
    exact scanPieces_simple hu hsimple t
  by_cases h1 : c = 0x22
  · subst h1
    exact named 0x22 (by decide) (by decide) (by decide)
  by_cases h2 : c = 0x5C
  · subst h2
    exact named 0x5C (by decide) (by decide) (by decide)
  by_cases h3 : c = 0x08
  · subst h3
    exact named 0x62 (by decide) (by decide) (by decide)
  by_cases h4 : c = 0x0C
  · subst h4
    exact named 0x66 (by decide) (by decide) (by decide)
  by_cases h5 : c = 0x0A
  · subst h5
    exact named 0x6E (by decide) (by decide) (by decide)
  by_cases h6 : c = 0x0D
  · subst h6
    exact named 0x72 (by decide) (by decide) (by decide)
  by_cases h7 : c = 0x09
  · subst h7
    exact named 0x74 (by decide) (by decide) (by decide)
  have hplain : ¬ (c = 0x22 ∨ c = 0x5C) := by simp [h1, h2]
  by_cases h8 : c.val < 0x20
  · refine ⟨.escaped c.val, fun ps => ?_, fun t => ?_⟩
    · have hhigh : isHighSurrogate c.val = false := by
        simp only [isHighSurrogate, Bool.and_eq_false_iff, decide_eq_false_iff_not]
        omega
      simp only [joinFrom, hhigh, Bool.false_eq_true, if_false]
      rw [Fin.ofNat_val_eq_self]
    · rw [escapeChar, if_neg hplain, if_neg h3, if_neg h4, if_neg h5, if_neg h6, if_neg h7, if_pos h8]
      have hslash : (0x5C : CodePoint) ≠ 0x22 := by decide
      simp only [List.cons_append, scanPieces, if_neg hslash, if_true]
      exact scanPieces_hexText (by omega) t
  · refine ⟨.plain c, hjoin, fun t => ?_⟩
    rw [escapeChar, if_neg hplain, if_neg h3, if_neg h4, if_neg h5, if_neg h6, if_neg h7, if_neg h8]
    exact scanPieces_plain h1 h2 h8 t

/-- A string literal reads back as the string. -/
lemma scanPieces_escaped (s rest : Text) :
    ∃ ps, scanPieces .normal (escaped s ++ rest) = some (ps, rest) ∧ joinFrom none ps = s := by
  induction s with
  | nil => exact ⟨[], by simp [escaped, scanPieces], rfl⟩
  | cons c s ih =>
      obtain ⟨ps, hscan, hjoin⟩ := ih
      obtain ⟨p, hp, hstep⟩ := scanPieces_escapeChar c
      refine ⟨p :: ps, ?_, by rw [hp, hjoin]⟩
      have htext : escaped (c :: s) ++ rest = escapeChar c ++ (escaped s ++ rest) := by
        simp [escaped, List.append_assoc]
      rw [htext, hstep, hscan]
      rfl

/-! ## Scanning a number -/

private lemma isAsciiDigit_of_isDigit {c : Char} (h : c.isDigit = true) :
    isAsciiDigit (Fin.ofNat _ c.toNat) = true := by
  obtain ⟨hlo, hhi⟩ := Char.isDigit_iff_toNat.mp h
  have hlo' : 0x30 ≤ c.toNat := hlo
  have hhi' : c.toNat ≤ 0x39 := hhi
  have hval : (Fin.ofNat 0x110000 c.toNat).val = c.toNat := Nat.mod_eq_of_lt (by omega)
  simp only [isAsciiDigit, hval, Bool.and_eq_true, decide_eq_true_eq]
  exact ⟨hlo', hhi'⟩

lemma isAsciiDigit_natText {n : ℕ} {c : CodePoint} (h : c ∈ natText n) : isAsciiDigit c = true := by
  obtain ⟨d, hd, rfl⟩ := List.mem_map.mp h
  exact isAsciiDigit_of_isDigit (Nat.isDigit_of_mem_toDigits (by decide) (by decide) hd)

lemma natText_ne_nil (n : ℕ) : natText n ≠ [] := by simp [natText]

private lemma val_digitChar {d : ℕ} (h : d < 10) :
    (Fin.ofNat 0x110000 d.digitChar.toNat).val = d + 0x30 := by
  have hall : ∀ d < 10, (Fin.ofNat 0x110000 (Nat.digitChar d).toNat).val = d + 0x30 := by decide
  exact hall d h

lemma natText_of_lt {d : ℕ} (h : d < 10) : natText d = [Fin.ofNat _ d.digitChar.toNat] := by
  rw [natText, Nat.toDigits_of_lt_base h]
  rfl

lemma natText_of_le {n : ℕ} (h : 10 ≤ n) :
    natText n = natText (n / 10) ++ [Fin.ofNat _ (n % 10).digitChar.toNat] := by
  rw [natText, Nat.toDigits_of_base_le (by decide) h, List.map_append]
  rfl

/-- The digits of a number spell it. -/
lemma digitsValue_natText (n : ℕ) : digitsValue (natText n) = n := by
  induction n using Nat.strong_induction_on with
  | _ n ih =>
      rcases lt_or_ge n 10 with h | h
      · rw [natText_of_lt h]
        simp only [digitsValue, List.foldl_cons, List.foldl_nil, val_digitChar h]
        omega
      · have hdiv := ih (n / 10) (by omega)
        rw [digitsValue] at hdiv
        rw [natText_of_le h, digitsValue, List.foldl_append, hdiv]
        simp only [List.foldl_cons, List.foldl_nil, val_digitChar (Nat.mod_lt n (by decide : 0 < 10))]
        omega

/-- Only zero starts with a zero. -/
lemma head_natText {n : ℕ} (h : 0 < n) : ∃ c t, natText n = c :: t ∧ c ≠ 0x30 := by
  induction n using Nat.strong_induction_on with
  | _ n ih =>
      rcases lt_or_ge n 10 with hlt | hge
      · refine ⟨_, _, natText_of_lt hlt, fun heq => ?_⟩
        have hval := val_digitChar hlt
        rw [heq] at hval
        have h30 : (0x30 : CodePoint).val = 0x30 := by decide
        omega
      · obtain ⟨c, t, ht, hc⟩ := ih (n / 10) (by omega) (by omega)
        exact ⟨c, _, by rw [natText_of_le hge, ht, List.cons_append], hc⟩

/-- What may follow a value: the end, or a delimiter. -/
def Delimited (t : Text) : Prop := ∀ c ∈ t.head?, c = 0x2C ∨ c = 0x5D ∨ c = 0x7D

lemma delimited_nil : Delimited [] := fun _ h => (nomatch h)

lemma delimited_cons {c : CodePoint} (h : c = 0x2C ∨ c = 0x5D ∨ c = 0x7D) (t : Text) :
    Delimited (c :: t) := by
  intro d hd
  obtain rfl : c = d := by simpa using hd
  exact h

/-- What may follow a value that is laid out: white space, besides. -/
def Ended (t : Text) : Prop :=
  ∀ c ∈ t.head?, c = 0x2C ∨ c = 0x5D ∨ c = 0x7D ∨ isJsonSpace c = true

lemma Delimited.ended {t : Text} (h : Delimited t) : Ended t := by
  intro c hc
  rcases h c hc with hc | hc | hc
  · exact .inl hc
  · exact .inr (.inl hc)
  · exact .inr (.inr (.inl hc))

lemma isAsciiDigit_of_isJsonSpace {c : CodePoint} (h : isJsonSpace c = true) :
    isAsciiDigit c = false := by
  simp only [isJsonSpace, Bool.or_eq_true, beq_iff_eq] at h
  rcases h with ((rfl | rfl) | rfl) | rfl <;> decide

lemma stripPrefix_of_head {p : Text} {c : CodePoint} {rest : Text} (hrest : Ended rest)
    (hp : p.head? = some c)
    (hc : c ≠ 0x2C ∧ c ≠ 0x5D ∧ c ≠ 0x7D ∧ isJsonSpace c = false) : stripPrefix p rest = none := by
  rw [stripPrefix, if_neg]
  intro hextends
  obtain ⟨t, rfl⟩ := List.isPrefixOf_iff_prefix.mp hextends
  obtain ⟨p, rfl⟩ : ∃ p', p = c :: p' := by
    cases p with
    | nil => cases hp
    | cons d p => exact ⟨p, by simpa using hp⟩
  rcases hrest c (by simp) with h | h | h | h
  · exact hc.1 h
  · exact hc.2.1 h
  · exact hc.2.2.1 h
  · rw [hc.2.2.2] at h
    cases h

/-- The digits of a number and what follows them, as the scanner cuts them apart. -/
lemma scanDigits_natText (n : ℕ) {t rest : Text} (hrest : Ended rest)
    (ht : t = natText n ++ rest) :
    (stripPrefix "0" t = some rest ∧ natText n = [0x30]) ∨
      (stripPrefix "0" t = none ∧ t.takeWhile isAsciiDigit = natText n ∧
        t.dropWhile isAsciiDigit = rest) := by
  rcases Nat.eq_zero_or_pos n with rfl | hpos
  · have hzero : natText 0 = "0" := by decide
    have hstrip : stripPrefix "0" t = some rest := by
      simp [stripPrefix, ht, hzero]
    exact .inl ⟨hstrip, hzero⟩
  · obtain ⟨c, u, hu, hc⟩ := head_natText hpos
    have hstrip : stripPrefix "0" t = none := by
      have hne : ¬ (0x30 : CodePoint) = c := fun h => hc h.symm
      rw [stripPrefix, if_neg]
      rw [ht, hu, List.cons_append]
      show ¬ List.isPrefixOf [(0x30 : CodePoint)] (c :: (u ++ rest)) = true
      simp [hne]
    have hstop : ∀ c ∈ rest.head?, isAsciiDigit c = false := by
      intro c hc
      rcases hrest c hc with rfl | rfl | rfl | hspace
      · decide
      · decide
      · decide
      · exact isAsciiDigit_of_isJsonSpace hspace
    have htake : rest.takeWhile isAsciiDigit = [] := by
      cases rest with
      | nil => rfl
      | cons c rest => simp [hstop c (by simp)]
    have hdrop : rest.dropWhile isAsciiDigit = rest := by
      cases rest with
      | nil => rfl
      | cons c rest => simp [hstop c (by simp)]
    refine .inr ⟨hstrip, ?_, ?_⟩
    · rw [ht, List.takeWhile_append_of_pos fun c hc => isAsciiDigit_natText hc, htake,
        List.append_nil]
    · rw [ht, List.dropWhile_append_of_pos fun c hc => isAsciiDigit_natText hc, hdrop]

lemma scanNumber_natText (negative : Bool) (n : ℕ) (hshort : shortInt n = true) {rest : Text}
    (hrest : Ended rest) : scanNumber negative (natText n ++ rest) =
      (.atom (.int (if negative then -(n : ℤ) else n)), rest) := by
  have hfraction : scanFraction rest = ([], rest) := by
    have hdot : stripPrefix "." rest = none := stripPrefix_of_head (c := 0x2E) hrest rfl (by decide)
    simp only [scanFraction, hdot]
  have hexponent : scanExponent rest = (none, rest) := by
    have he : stripPrefix "e" rest = none := stripPrefix_of_head (c := 0x65) hrest rfl (by decide)
    have hE : stripPrefix "E" rest = none := stripPrefix_of_head (c := 0x45) hrest rfl (by decide)
    simp only [scanExponent, he, hE, Option.orElse_none]
  have hlength : ¬ maxIntDigits < (natText n).length := by
    simpa [shortInt] using hshort
  obtain ⟨t, ht⟩ : ∃ t, t = natText n ++ rest := ⟨_, rfl⟩
  rw [← ht]
  rcases scanDigits_natText n hrest ht with ⟨hstrip, hzero⟩ | ⟨hstrip, htake, hdrop⟩
  · have hvalue := digitsValue_natText n
    have hmax : maxIntDigits ≠ 0 := by decide
    rw [hzero] at hvalue
    simp only [scanNumber, hstrip, hfraction, hexponent]
    simp [hmax, hvalue]
  · simp only [scanNumber, hstrip, htake, hdrop, hfraction, hexponent]
    simp [natText_ne_nil, hlength, digitsValue_natText]

/-! ## Scanning a value -/

/-- One token that is not bad, and then the rest. -/
lemma scan_cons {c : CodePoint} {t rest : Text} {token : Token} (hspace : isJsonSpace c = false)
    (htoken : scanToken c t = (token, rest)) (hbad : ∀ e, token ≠ .bad e) :
    scan (c :: t) = token :: scan rest := by
  have hlength := scanToken_length htoken hbad
  have hskip : skipSpace (c :: t) = c :: t := by simp [skipSpace, hspace]
  rw [scan, List.length_cons, scanFrom, hskip]
  simp only [htoken]
  cases token with
  | bad e => exact absurd rfl (hbad e)
  | _ => simp only [scanFrom_of_le hlength]

lemma scan_punctuation {c : CodePoint} {token : Token} (hspace : isJsonSpace c = false)
    (hpunctuation : punctuation c = some token) (hbad : ∀ e, token ≠ .bad e) (t : Text) :
    scan (c :: t) = token :: scan t := by
  refine scan_cons hspace ?_ hbad
  simp only [scanToken, hpunctuation]

lemma scan_openBracket (t : Text) : scan (0x5B :: t) = .openBracket :: scan t :=
  scan_punctuation (by decide) rfl (by simp) t

lemma scan_closeBracket (t : Text) : scan (0x5D :: t) = .closeBracket :: scan t :=
  scan_punctuation (by decide) rfl (by simp) t

lemma scan_openBrace (t : Text) : scan (0x7B :: t) = .openBrace :: scan t :=
  scan_punctuation (by decide) rfl (by simp) t

lemma scan_closeBrace (t : Text) : scan (0x7D :: t) = .closeBrace :: scan t :=
  scan_punctuation (by decide) rfl (by simp) t

lemma scan_comma (t : Text) : scan (0x2C :: t) = .comma :: scan t :=
  scan_punctuation (by decide) rfl (by simp) t

lemma scan_colon (t : Text) : scan (0x3A :: t) = .colon :: scan t :=
  scan_punctuation (by decide) rfl (by simp) t

lemma scan_string (s rest : Text) :
    scan (0x22 :: escaped s ++ rest) = .str s :: scan rest := by
  obtain ⟨ps, hscan, hjoin⟩ := scanPieces_escaped s rest
  refine scan_cons (by decide) ?_ (by simp)
  have hquote : punctuation 0x22 = none := by decide
  have htext : List.append (escaped s) rest = escaped s ++ rest := rfl
  simp only [scanToken, hquote, if_true, htext, hscan, hjoin]

/-- A literal that is no number. -/
lemma scan_literal {c : CodePoint} {t rest : Text} {v : Value} (hspace : isJsonSpace c = false)
    (hpunctuation : punctuation c = none) (hquote : c ≠ 0x22)
    (hliteral : scanLiteral (c :: t) = some (v, rest)) :
    scan (c :: t) = .atom v :: scan rest := by
  refine scan_cons hspace ?_ (by simp)
  simp only [scanToken, hpunctuation, if_neg hquote, hliteral]

lemma scan_null (rest : Text) : scan (("null" : Text) ++ rest) = .atom .null :: scan rest :=
  scan_literal (c := 0x6E) (t := ("ull" : Text) ++ rest) (by decide) (by decide) (by decide) rfl

lemma scan_true (rest : Text) : scan (("true" : Text) ++ rest) = .atom (.bool true) :: scan rest :=
  scan_literal (c := 0x74) (t := ("rue" : Text) ++ rest) (by decide) (by decide) (by decide) rfl

lemma scan_false (rest : Text) :
    scan (("false" : Text) ++ rest) = .atom (.bool false) :: scan rest :=
  scan_literal (c := 0x66) (t := ("alse" : Text) ++ rest) (by decide) (by decide) (by decide) rfl

/-- No literal has a digit in its first or second place. -/
lemma scanLiteral_eq_none {t : Text} {i : ℕ} {c : CodePoint} (hi : i < 2) (ht : t[i]? = some c)
    (hc : isAsciiDigit c = true) : scanLiteral t = none := by
  have hliterals : ∀ q ∈ literals, 2 ≤ q.1.length ∧
      (q.1[0]?.all fun d => !isAsciiDigit d) ∧ (q.1[1]?.all fun d => !isAsciiDigit d) := by decide
  rw [scanLiteral, List.findSome?_eq_none_iff]
  intro q hq
  obtain ⟨hlength, hfirst, hsecond⟩ := hliterals q hq
  rw [stripPrefix, if_neg, Option.map_none]
  intro hextends
  obtain ⟨u, rfl⟩ := List.isPrefixOf_iff_prefix.mp hextends
  rw [List.getElem?_append_left (by omega)] at ht
  obtain rfl | rfl : i = 0 ∨ i = 1 := by omega
  · simp [ht, hc] at hfirst
  · simp [ht, hc] at hsecond

lemma scan_int (n : ℤ) (hshort : shortInt n = true) {rest : Text} (hrest : Ended rest) :
    scan (intText n ++ rest) = .atom (.int n) :: scan rest := by
  obtain ⟨c, t, ht⟩ := List.exists_cons_of_ne_nil (natText_ne_nil n.natAbs)
  have hdigit : isAsciiDigit c = true := isAsciiDigit_natText (n := n.natAbs) (ht ▸ List.mem_cons_self)
  have hshort' : shortInt (n.natAbs : ℤ) = true := by
    rw [shortInt, Int.natAbs_natCast]
    exact hshort
  have hliteral : scanLiteral (c :: (t ++ rest)) = none :=
    scanLiteral_eq_none (i := 0) (by decide) rfl hdigit
  have hminus : scanLiteral (0x2D :: c :: (t ++ rest)) = none :=
    scanLiteral_eq_none (i := 1) (by decide) rfl hdigit
  have hrange : 0x30 ≤ c.val ∧ c.val ≤ 0x39 := by
    simpa [isAsciiDigit] using hdigit
  have hne : ∀ d : CodePoint, d.val < 0x30 ∨ 0x39 < d.val → c ≠ d := by
    rintro d hd rfl
    omega
  rw [intText]
  split_ifs with hneg
  · have hnum := scanNumber_natText true n.natAbs hshort' hrest
    rw [List.cons_append]
    refine scan_cons (by decide) ?_ (by simp)
    have hpunctuation : punctuation 0x2D = none := by decide
    have hquote : ¬ (0x2D : CodePoint) = 0x22 := by decide
    have hvalue : -(n.natAbs : ℤ) = n := by omega
    have htext : natText n.natAbs ++ rest = c :: (t ++ rest) := by rw [ht, List.cons_append]
    simp only [scanToken, hpunctuation, if_neg hquote, htext, hminus, if_true]
    rw [← htext, hnum, if_pos rfl, hvalue]
  · have hnum := scanNumber_natText false n.natAbs hshort' hrest
    have hvalue : (n.natAbs : ℤ) = n := by omega
    rw [ht, List.cons_append] at hnum ⊢
    refine scan_cons ?_ ?_ (by simp)
    · have h1 := hne 0x20 (by decide)
      have h2 := hne 0x09 (by decide)
      have h3 := hne 0x0A (by decide)
      have h4 := hne 0x0D (by decide)
      simp [isJsonSpace, h1, h2, h3, h4]
    · have hpunctuation : punctuation c = none := by
        have h1 := hne 0x7B (by decide)
        have h2 := hne 0x7D (by decide)
        have h3 := hne 0x5B (by decide)
        have h4 := hne 0x5D (by decide)
        have h5 := hne 0x2C (by decide)
        have h6 := hne 0x3A (by decide)
        simp [punctuation, h1, h2, h3, h4, h5, h6]
      have hquote := hne 0x22 (by decide)
      have hsign := hne 0x2D (by decide)
      simp only [scanToken, hpunctuation, if_neg hquote, hliteral, if_neg hsign]
      rw [hnum, if_neg (by decide), hvalue]

lemma scan_space {c : CodePoint} (hc : isJsonSpace c = true) (t : Text) :
    scan (c :: t) = scan t := by
  have hfrom : scanFrom (t.length + 1) (c :: t) = scanFrom (t.length + 1) t := by
    simp only [scanFrom, skipSpace, List.dropWhile_cons, hc, if_true]
  rw [scan, List.length_cons, hfrom, scanFrom_of_le (Nat.le_succ _)]

/-- White space between tokens is skipped. -/
lemma scan_pad {pad : Text} (hpad : pad.all isJsonSpace = true) (rest : Text) :
    scan (pad ++ rest) = scan rest := by
  induction pad with
  | nil => rfl
  | cons c pad ih =>
      rw [List.all_cons, Bool.and_eq_true] at hpad
      rw [List.cons_append, scan_space hpad.1, ih hpad.2]

/-- The text of a float reads back as the float, wherever it may end. -/
def ReadsBack (floatText : Binary64 → Text) (x : Binary64) : Prop :=
  ∀ rest, Delimited rest → scan (floatText x ++ rest) = .atom (.float x) :: scan rest

section Written

variable {pad : Text} {floatText : Binary64 → Text}

lemma delimited_writtenItems (items : List Value) {c : CodePoint}
    (hc : c = 0x2C ∨ c = 0x5D ∨ c = 0x7D) (t : Text) :
    Delimited (writtenItems pad floatText items ++ c :: t) := by
  cases items with
  | nil => exact delimited_cons hc t
  | cons v items => exact delimited_cons (.inl rfl) _

lemma delimited_writtenPairs (items : List (Text × Value)) {c : CodePoint}
    (hc : c = 0x2C ∨ c = 0x5D ∨ c = 0x7D) (t : Text) :
    Delimited (writtenPairs pad floatText items ++ c :: t) := by
  cases items with
  | nil => exact delimited_cons hc t
  | cons p items => exact delimited_cons (.inl rfl) _

mutual

/-- The scanner cuts the text of a value into the tokens of the value. -/
lemma scan_written (hpad : pad.all isJsonSpace = true) :
    ∀ (v : Value) {rest : Text}, (∀ x ∈ v.floats, ReadsBack floatText x) → v.shortInts = true →
      Delimited rest → scan (v.written pad floatText ++ rest) = v.tokens ++ scan rest
  | .null, rest, _, _, _ => scan_null rest
  | .bool true, rest, _, _, _ => scan_true rest
  | .bool false, rest, _, _, _ => scan_false rest
  | .int n, rest, _, hshort, hrest => scan_int n hshort hrest.ended
  | .float x, rest, hfloats, _, hrest => hfloats x (List.mem_singleton_self x) rest hrest
  | .str s, rest, _, _, _ => scan_string s rest
  | .arr [], rest, _, _, _ => by
      show scan (0x5B :: 0x5D :: rest) = _
      rw [scan_openBracket, scan_closeBracket]
      rfl
  | .arr (v :: items), rest, hfloats, hshort, _ => by
      simp only [Value.floats, floatsItems, List.forall_mem_append] at hfloats
      simp only [Value.shortInts, shortIntsItems, Bool.and_eq_true] at hshort
      have hclose : Delimited (writtenItems pad floatText items ++ 0x5D :: rest) :=
        delimited_writtenItems items (.inr (.inl rfl)) rest
      simp only [Value.written, Value.tokens, List.cons_append, List.append_assoc, List.nil_append]
      rw [scan_openBracket, scan_written hpad v hfloats.1 hshort.1 hclose,
        scan_writtenItems hpad items hfloats.2 hshort.2 (delimited_cons (.inr (.inl rfl)) _),
        scan_closeBracket]
  | .obj [], rest, _, _, _ => by
      show scan (0x7B :: 0x7D :: rest) = _
      rw [scan_openBrace, scan_closeBrace]
      rfl
  | .obj ((k, v) :: items), rest, hfloats, hshort, _ => by
      simp only [Value.floats, floatsPairs, List.forall_mem_append] at hfloats
      simp only [Value.shortInts, shortIntsPairs, Bool.and_eq_true] at hshort
      have hclose : Delimited (writtenPairs pad floatText items ++ 0x7D :: rest) :=
        delimited_writtenPairs items (.inr (.inr rfl)) rest
      simp only [Value.written, Value.tokens, List.cons_append, List.append_assoc, List.nil_append]
      rw [scan_openBrace, ← List.cons_append, scan_string, scan_colon, scan_pad hpad,
        scan_written hpad v hfloats.1 hshort.1 hclose,
        scan_writtenPairs hpad items hfloats.2 hshort.2 (delimited_cons (.inr (.inr rfl)) _),
        scan_closeBrace]

lemma scan_writtenItems (hpad : pad.all isJsonSpace = true) :
    ∀ (items : List Value) {rest : Text}, (∀ x ∈ floatsItems items, ReadsBack floatText x) →
      shortIntsItems items = true → Delimited rest →
      scan (writtenItems pad floatText items ++ rest) = tokensItems items ++ scan rest
  | [], _, _, _, _ => rfl
  | v :: items, rest, hfloats, hshort, hrest => by
      simp only [floatsItems, List.forall_mem_append] at hfloats
      simp only [shortIntsItems, Bool.and_eq_true] at hshort
      have hnext : Delimited (writtenItems pad floatText items ++ rest) := by
        cases items with
        | nil => exact hrest
        | cons w items => exact delimited_cons (.inl rfl) _
      simp only [writtenItems, tokensItems, List.cons_append, List.append_assoc]
      rw [scan_comma, scan_pad hpad, scan_written hpad v hfloats.1 hshort.1 hnext,
        scan_writtenItems hpad items hfloats.2 hshort.2 hrest]

lemma scan_writtenPairs (hpad : pad.all isJsonSpace = true) :
    ∀ (items : List (Text × Value)) {rest : Text}, (∀ x ∈ floatsPairs items, ReadsBack floatText x) →
      shortIntsPairs items = true → Delimited rest →
      scan (writtenPairs pad floatText items ++ rest) = tokensPairs items ++ scan rest
  | [], _, _, _, _ => rfl
  | (k, v) :: items, rest, hfloats, hshort, hrest => by
      simp only [floatsPairs, List.forall_mem_append] at hfloats
      simp only [shortIntsPairs, Bool.and_eq_true] at hshort
      have hnext : Delimited (writtenPairs pad floatText items ++ rest) := by
        cases items with
        | nil => exact hrest
        | cons w items => exact delimited_cons (.inl rfl) _
      simp only [writtenPairs, tokensPairs, List.cons_append, List.append_assoc]
      rw [scan_comma, scan_pad hpad, ← List.cons_append, scan_string, scan_colon, scan_pad hpad,
        scan_written hpad v hfloats.1 hshort.1 hnext,
        scan_writtenPairs hpad items hfloats.2 hshort.2 hrest]

end

end Written

/-! ## Folding the tokens -/

lemma firstRepeated_eq_none {pairs : List (Text × Value)} :
    ∀ {seen : List Text}, (∀ k ∈ dictKeys pairs, k ∉ seen) → (dictKeys pairs).Nodup →
      closeObject.firstRepeated seen pairs = none := by
  induction pairs with
  | nil => intro seen _ _; rfl
  | cons p pairs ih =>
      obtain ⟨k, v⟩ := p
      intro seen hseen hnodup
      obtain ⟨hk, hpairs⟩ := List.nodup_cons.mp hnodup
      rw [closeObject.firstRepeated, if_neg (hseen k List.mem_cons_self)]
      refine ih (fun k' hk' hmem => ?_) hpairs
      rcases List.mem_cons.mp hmem with rfl | hmem
      · exact hk hk'
      · exact hseen k' (List.mem_cons_of_mem _ hk') hmem

lemma closeObject_of_nodup (o : Options) {pairs : List (Text × Value)}
    (h : (dictKeys pairs).Nodup) : closeObject o pairs = .ok (.obj pairs) := by
  have hfirst := @firstRepeated_eq_none pairs [] (fun _ _ hmem => (nomatch hmem)) h
  simp [closeObject, hfirst, dictOf_of_nodup h]

mutual

/-- The machine folds the tokens of a value into the value, when it has room for it. -/
lemma run_tokens (o : Options) :
    ∀ (v : Value) {mode : Mode} {stack : List Frame} {rest : List Token},
      mode = .value ∨ mode = .valueOrClose → v.wellKeyed = true → stack.length ≤ o.nesting →
      run o mode stack (v.tokens ++ rest) =
        if stack.length + v.depth ≤ o.nesting then run o (.after v) stack rest
        else .error .recursion
  | .null, mode, stack, rest, hmode, _, hroom => by
      rcases hmode with rfl | rfl <;> simp [Value.tokens, run, Value.depth, hroom]
  | .bool b, mode, stack, rest, hmode, _, hroom => by
      rcases hmode with rfl | rfl <;> simp [Value.tokens, run, Value.depth, hroom]
  | .int n, mode, stack, rest, hmode, _, hroom => by
      rcases hmode with rfl | rfl <;> simp [Value.tokens, run, Value.depth, hroom]
  | .float x, mode, stack, rest, hmode, _, hroom => by
      rcases hmode with rfl | rfl <;> simp [Value.tokens, run, Value.depth, hroom]
  | .str s, mode, stack, rest, hmode, _, hroom => by
      rcases hmode with rfl | rfl <;> simp [Value.tokens, run, Value.depth, hroom]
  | .arr [], mode, stack, rest, hmode, _, hroom => by
      have hopen : run o mode stack (.openBracket :: .closeBracket :: rest) =
          if o.nesting ≤ stack.length then .error .recursion
          else run o (.after (.arr [])) stack rest := by
        rcases hmode with rfl | rfl <;> simp [run]
      have hdepth : (Value.arr []).depth = 1 := rfl
      rw [hdepth]
      simp only [Value.tokens, List.cons_append, List.nil_append, hopen]
      split_ifs <;> first | rfl | omega
  | .arr (v :: items), mode, stack, rest, hmode, hkeyed, hroom => by
      simp only [Value.wellKeyed, wellKeyedItems, Bool.and_eq_true] at hkeyed
      have hopen : ∀ tokens, run o mode stack (.openBracket :: tokens) =
          if o.nesting ≤ stack.length then .error .recursion
          else run o .valueOrClose (.array [] :: stack) tokens := by
        intro tokens
        rcases hmode with rfl | rfl <;> rfl
      have hdepth : (Value.arr (v :: items)).depth = max v.depth (depthItems items) + 1 := rfl
      rw [hdepth]
      simp only [Value.tokens, List.cons_append, List.append_assoc, List.nil_append, hopen]
      by_cases hfull : o.nesting ≤ stack.length
      · rw [if_pos hfull, if_neg (by omega)]
      · have hinner : (Frame.array [] :: stack).length ≤ o.nesting := by
          rw [List.length_cons]
          omega
        rw [if_neg hfull, run_tokens o v (.inr rfl) hkeyed.1 hinner, run_items o items v [] hkeyed.2
          hinner, List.length_cons]
        split_ifs <;> first | rfl | omega
  | .obj [], mode, stack, rest, hmode, _, hroom => by
      have hopen : run o mode stack (.openBrace :: .closeBrace :: rest) =
          if o.nesting ≤ stack.length then .error .recursion
          else run o (.after (.obj [])) stack rest := by
        rcases hmode with rfl | rfl <;> simp [run]
      have hdepth : (Value.obj []).depth = 1 := rfl
      rw [hdepth]
      simp only [Value.tokens, List.cons_append, List.nil_append, hopen]
      split_ifs <;> first | rfl | omega
  | .obj ((k, v) :: items), mode, stack, rest, hmode, hkeyed, hroom => by
      simp only [Value.wellKeyed, wellKeyedPairs, Bool.and_eq_true, decide_eq_true_eq] at hkeyed
      have hopen : ∀ tokens, run o mode stack (.openBrace :: .str k :: .colon :: tokens) =
          if o.nesting ≤ stack.length then .error .recursion
          else run o .value (.object [] k :: stack) tokens := by
        intro tokens
        rcases hmode with rfl | rfl <;> rfl
      have hdepth : (Value.obj ((k, v) :: items)).depth = max v.depth (depthPairs items) + 1 := rfl
      rw [hdepth]
      simp only [Value.tokens, List.cons_append, List.append_assoc, List.nil_append, hopen]
      by_cases hfull : o.nesting ≤ stack.length
      · rw [if_pos hfull, if_neg (by omega)]
      · have hinner : (Frame.object [] k :: stack).length ≤ o.nesting := by
          rw [List.length_cons]
          omega
        rw [if_neg hfull, run_tokens o v (.inl rfl) hkeyed.2.1 hinner,
          run_pairs o items k v [] hkeyed.2.2 (by simpa using hkeyed.1) hinner, List.length_cons]
        split_ifs <;> first | rfl | omega

lemma run_items (o : Options) :
    ∀ (items : List Value) (v : Value) (read : List Value) {stack : List Frame}
      {rest : List Token}, wellKeyedItems items = true →
      (Frame.array read :: stack).length ≤ o.nesting →
      run o (.after v) (.array read :: stack) (tokensItems items ++ .closeBracket :: rest) =
        if stack.length + 1 + depthItems items ≤ o.nesting then
          run o (.after (.arr (read.reverse ++ v :: items))) stack rest
        else .error .recursion
  | [], v, read, stack, rest, _, hroom => by
      rw [List.length_cons] at hroom
      simp [tokensItems, run, depthItems, hroom]
  | w :: items, v, read, stack, rest, hkeyed, hroom => by
      simp only [wellKeyedItems, Bool.and_eq_true] at hkeyed
      have hcomma : ∀ tokens, run o (.after v) (.array read :: stack) (.comma :: tokens) =
          run o .value (.array (v :: read) :: stack) tokens := fun tokens => rfl
      have hdepth : depthItems (w :: items) = max w.depth (depthItems items) := rfl
      rw [hdepth]
      simp only [tokensItems, List.cons_append, List.append_assoc, hcomma]
      rw [run_tokens o w (.inl rfl) hkeyed.1 (by simpa using hroom),
        run_items o items w (v :: read) hkeyed.2 (by simpa using hroom), List.length_cons]
      have hread : (v :: read).reverse ++ w :: items = read.reverse ++ v :: w :: items := by simp
      rw [hread]
      split_ifs <;> first | rfl | omega

lemma run_pairs (o : Options) :
    ∀ (items : List (Text × Value)) (k : Text) (v : Value) (read : List (Text × Value))
      {stack : List Frame} {rest : List Token}, wellKeyedPairs items = true →
      (dictKeys (read.reverse ++ (k, v) :: items)).Nodup →
      (Frame.object read k :: stack).length ≤ o.nesting →
      run o (.after v) (.object read k :: stack) (tokensPairs items ++ .closeBrace :: rest) =
        if stack.length + 1 + depthPairs items ≤ o.nesting then
          run o (.after (.obj (read.reverse ++ (k, v) :: items))) stack rest
        else .error .recursion
  | [], k, v, read, stack, rest, _, hnodup, hroom => by
      rw [List.length_cons] at hroom
      have hclose : closeObject o ((k, v) :: read).reverse =
          .ok (.obj (read.reverse ++ [(k, v)])) := by
        rw [List.reverse_cons]
        exact closeObject_of_nodup o hnodup
      have hdepth : depthPairs [] = 0 := rfl
      rw [hdepth, if_pos (by omega)]
      simp only [tokensPairs, List.nil_append, run, hclose]
  | (l, w) :: items, k, v, read, stack, rest, hkeyed, hnodup, hroom => by
      simp only [wellKeyedPairs, Bool.and_eq_true] at hkeyed
      have hcomma : ∀ tokens, run o (.after v) (.object read k :: stack)
          (.comma :: .str l :: .colon :: tokens) =
          run o .value (.object ((k, v) :: read) l :: stack) tokens := fun tokens => rfl
      have hread : ((k, v) :: read).reverse ++ (l, w) :: items =
          read.reverse ++ (k, v) :: (l, w) :: items := by simp
      have hdepth : depthPairs ((l, w) :: items) = max w.depth (depthPairs items) := rfl
      rw [hdepth]
      simp only [tokensPairs, List.cons_append, List.append_assoc, hcomma]
      rw [run_tokens o w (.inl rfl) hkeyed.1 (by simpa using hroom),
        run_pairs o items l w ((k, v) :: read) hkeyed.2 (hread ▸ hnodup) (by simpa using hroom),
        List.length_cons, hread]
      split_ifs <;> first | rfl | omega

end

/-- Writing a value and reading it back gives the value, unless the reader has no room for it. -/
theorem loads_written (o : Options) {pad : Text} {floatText : Binary64 → Text} {v : Value}
    (hpad : pad.all isJsonSpace = true) (hfloats : ∀ x ∈ v.floats, ReadsBack floatText x)
    (hshort : v.shortInts = true) (hkeyed : v.wellKeyed = true) :
    loads o (v.written pad floatText) = if v.depth ≤ o.nesting then .ok v else .error .recursion := by
  have hscan := @scan_written pad floatText hpad v [] hfloats hshort delimited_nil
  have hrun := @run_tokens o v .value [] [] (.inl rfl) hkeyed (Nat.zero_le _)
  have hnil : scan [] = [] := rfl
  rw [List.append_nil, hnil] at hscan
  rw [loads, hscan, hrun]
  simp [run]

/-- Without floats, and where the writer refuses nothing. -/
theorem loads_compact (o : Options) {floatText : Binary64 → Text} {room : ℕ} {v : Value}
    (hfree : v.floatFree = true) (hrefusal : v.refusal room = none) (hkeyed : v.wellKeyed = true) :
    loads o (v.compact floatText) = if v.depth ≤ o.nesting then .ok v else .error .recursion := by
  rw [compact_eq_written]
  refine loads_written o rfl (fun x hx => ?_) (shortInts_of_refusal hrefusal) hkeyed
  rw [floats_of_floatFree hfree] at hx
  exact absurd hx List.not_mem_nil

/-! ## Sorting the keys -/

lemma floatFreePairs_iff {items : List (Text × Value)} :
    floatFreePairs items = true ↔ ∀ p ∈ items, p.2.floatFree = true := by
  induction items with
  | nil => simp [floatFreePairs]
  | cons p items ih => simp [floatFreePairs, ih]

lemma wellKeyedPairs_iff {items : List (Text × Value)} :
    wellKeyedPairs items = true ↔ ∀ p ∈ items, p.2.wellKeyed = true := by
  induction items with
  | nil => simp [wellKeyedPairs]
  | cons p items ih => simp [wellKeyedPairs, ih]

lemma depthPairs_perm {items items' : List (Text × Value)} (h : items.Perm items') :
    depthPairs items = depthPairs items' := by
  induction h with
  | nil => rfl
  | cons p _ ih => obtain ⟨k, v⟩ := p; simp only [depthPairs, ih]
  | swap p q items =>
      obtain ⟨k, v⟩ := p
      obtain ⟨l, w⟩ := q
      simp only [depthPairs]
      omega
  | trans _ _ ih ih' => exact ih.trans ih'

lemma sortPairs_eq_map (items : List (Text × Value)) :
    sortPairs items = items.map fun p => (p.1, p.2.sortKeys) := by
  induction items with
  | nil => rfl
  | cons p items ih => obtain ⟨k, v⟩ := p; simp [sortPairs, ih]

lemma dictKeys_sortPairs (items : List (Text × Value)) :
    dictKeys (sortPairs items) = dictKeys items := by
  simp [sortPairs_eq_map, dictKeys]

mutual

lemma floatFree_sortKeys : ∀ v : Value, v.floatFree = true → v.sortKeys.floatFree = true
  | .null, h => h
  | .bool _, h => h
  | .int _, h => h
  | .float _, h => h
  | .str _, h => h
  | .arr items, h => floatFree_sortItems items h
  | .obj items, h => by
      have hperm := List.perm_insertionSort keyLe (sortPairs items)
      have hsorted := floatFreePairs_iff.mp (floatFree_sortPairs items h)
      exact floatFreePairs_iff.mpr fun p hp => hsorted p (hperm.mem_iff.mp hp)

lemma floatFree_sortItems : ∀ items : List Value,
    floatFreeItems items = true → floatFreeItems (sortItems items) = true
  | [], h => h
  | v :: items, h => by
      simp only [sortItems, floatFreeItems, Bool.and_eq_true] at h ⊢
      exact ⟨floatFree_sortKeys v h.1, floatFree_sortItems items h.2⟩

lemma floatFree_sortPairs : ∀ items : List (Text × Value),
    floatFreePairs items = true → floatFreePairs (sortPairs items) = true
  | [], h => h
  | (k, v) :: items, h => by
      simp only [sortPairs, floatFreePairs, Bool.and_eq_true] at h ⊢
      exact ⟨floatFree_sortKeys v h.1, floatFree_sortPairs items h.2⟩

end

mutual

lemma wellKeyed_sortKeys : ∀ v : Value, v.wellKeyed = true → v.sortKeys.wellKeyed = true
  | .null, h => h
  | .bool _, h => h
  | .int _, h => h
  | .float _, h => h
  | .str _, h => h
  | .arr items, h => wellKeyed_sortItems items h
  | .obj items, h => by
      simp only [Value.wellKeyed, Bool.and_eq_true, decide_eq_true_eq] at h
      have hperm := List.perm_insertionSort keyLe (sortPairs items)
      have hsorted := wellKeyedPairs_iff.mp (wellKeyed_sortPairs items h.2)
      simp only [Value.sortKeys, Value.wellKeyed, Bool.and_eq_true, decide_eq_true_eq]
      refine ⟨?_, wellKeyedPairs_iff.mpr fun p hp => hsorted p (hperm.mem_iff.mp hp)⟩
      have hkeys : (dictKeys (sortPairs items)).Nodup := by
        rw [dictKeys_sortPairs]
        exact h.1
      exact (hperm.map Prod.fst).nodup_iff.mpr hkeys

lemma wellKeyed_sortItems : ∀ items : List Value,
    wellKeyedItems items = true → wellKeyedItems (sortItems items) = true
  | [], h => h
  | v :: items, h => by
      simp only [sortItems, wellKeyedItems, Bool.and_eq_true] at h ⊢
      exact ⟨wellKeyed_sortKeys v h.1, wellKeyed_sortItems items h.2⟩

lemma wellKeyed_sortPairs : ∀ items : List (Text × Value),
    wellKeyedPairs items = true → wellKeyedPairs (sortPairs items) = true
  | [], h => h
  | (k, v) :: items, h => by
      simp only [sortPairs, wellKeyedPairs, Bool.and_eq_true] at h ⊢
      exact ⟨wellKeyed_sortKeys v h.1, wellKeyed_sortPairs items h.2⟩

end

mutual

lemma depth_sortKeys : ∀ v : Value, v.sortKeys.depth = v.depth
  | .null => rfl
  | .bool _ => rfl
  | .int _ => rfl
  | .float _ => rfl
  | .str _ => rfl
  | .arr items => congrArg (· + 1) (depth_sortItems items)
  | .obj items => by
      have hperm := List.perm_insertionSort keyLe (sortPairs items)
      simp only [Value.sortKeys, Value.depth, depthPairs_perm hperm, depth_sortPairs items]

lemma depth_sortItems : ∀ items : List Value, depthItems (sortItems items) = depthItems items
  | [] => rfl
  | v :: items => by simp only [sortItems, depthItems, depth_sortKeys v, depth_sortItems items]

lemma depth_sortPairs : ∀ items : List (Text × Value),
    depthPairs (sortPairs items) = depthPairs items
  | [] => rfl
  | (k, v) :: items => by
      simp only [sortPairs, depthPairs, depth_sortKeys v, depth_sortPairs items]

end

lemma mem_floatsPairs {items : List (Text × Value)} {x : Binary64} :
    x ∈ floatsPairs items ↔ ∃ p ∈ items, x ∈ p.2.floats := by
  induction items with
  | nil => simp [floatsPairs]
  | cons p items ih => simp [floatsPairs, ih]

mutual

lemma floats_sortKeys : ∀ (v : Value) {x : Binary64}, x ∈ v.sortKeys.floats → x ∈ v.floats
  | .null, _, h => h
  | .bool _, _, h => h
  | .int _, _, h => h
  | .float _, _, h => h
  | .str _, _, h => h
  | .arr items, _, h => floats_sortItems items h
  | .obj items, x, h => by
      obtain ⟨p, hp, hx⟩ := mem_floatsPairs.mp h
      rw [(List.perm_insertionSort keyLe (sortPairs items)).mem_iff] at hp
      exact floats_sortPairs items (mem_floatsPairs.mpr ⟨p, hp, hx⟩)

lemma floats_sortItems : ∀ (items : List Value) {x : Binary64},
    x ∈ floatsItems (sortItems items) → x ∈ floatsItems items
  | [], _, h => h
  | v :: items, x, h => by
      simp only [sortItems, floatsItems, List.mem_append] at h ⊢
      exact h.imp (floats_sortKeys v) (floats_sortItems items)

lemma floats_sortPairs : ∀ (items : List (Text × Value)) {x : Binary64},
    x ∈ floatsPairs (sortPairs items) → x ∈ floatsPairs items
  | [], _, h => h
  | (k, v) :: items, x, h => by
      simp only [sortPairs, floatsPairs, List.mem_append] at h ⊢
      exact h.imp (floats_sortKeys v) (floats_sortPairs items)

end

/-- What a padded writer wrote reads back as the value with its keys in order. -/
theorem loads_dumpsPadded (o : Options) {pad : Text} {nesting : ℕ} {floatText : Binary64 → Text}
    {v : Value} {t : Text} (hpad : pad.all isJsonSpace = true)
    (hfloats : ∀ x ∈ v.floats, ReadsBack floatText x) (hkeyed : v.wellKeyed = true)
    (h : dumpsPadded pad nesting floatText v = .ok t) :
    loads o t = if v.depth ≤ o.nesting then .ok v.sortKeys else .error .recursion := by
  unfold dumpsPadded at h
  split at h
  · cases h
  · next hrefusal =>
    obtain rfl := Except.ok.inj h
    rw [loads_written o hpad (fun x hx => hfloats x (floats_sortKeys v hx))
      (shortInts_of_lenientRefusal hrefusal) (wellKeyed_sortKeys v hkeyed), depth_sortKeys]

/-- What a padded writer wrote tells apart two values that differ in more than the order of their
keys. -/
theorem sortKeys_eq_of_dumpsPadded_eq {pad : Text} {nesting : ℕ} {floatText : Binary64 → Text}
    {v w : Value} {t : Text} (hpad : pad.all isJsonSpace = true)
    (hv : ∀ x ∈ v.floats, ReadsBack floatText x) (hv' : v.wellKeyed = true)
    (hw : ∀ x ∈ w.floats, ReadsBack floatText x) (hw' : w.wellKeyed = true)
    (h : dumpsPadded pad nesting floatText v = .ok t)
    (h' : dumpsPadded pad nesting floatText w = .ok t) : v.sortKeys = w.sortKeys := by
  have hdepth : v.depth ≤ max v.depth w.depth ∧ w.depth ≤ max v.depth w.depth := by omega
  have hread := loads_dumpsPadded ⟨max v.depth w.depth, false⟩ hpad hv hv' h
  rw [loads_dumpsPadded _ hpad hw hw' h', if_pos hdepth.1, if_pos hdepth.2] at hread
  exact (Except.ok.inj hread).symm

/-- Reading what was written gives the value with its keys in order. -/
theorem loads_dumps (o : Options) {nesting : ℕ} {floatText : Binary64 → Text} {v : Value}
    {t : Text} (hfree : v.floatFree = true) (hkeyed : v.wellKeyed = true)
    (h : dumps nesting floatText v = .ok t) :
    loads o t = if v.depth ≤ o.nesting then .ok v.sortKeys else .error .recursion := by
  unfold dumps at h
  split at h
  · cases h
  · next hrefusal =>
    obtain rfl := Except.ok.inj h
    rw [loads_compact o (floatFree_sortKeys v hfree) hrefusal (wellKeyed_sortKeys v hkeyed),
      depth_sortKeys]

/-- What was written tells apart two values that differ in more than the order of their keys. -/
theorem sortKeys_eq_of_dumps_eq {nesting : ℕ} {floatText : Binary64 → Text} {v w : Value} {t : Text}
    (hv : v.floatFree = true) (hv' : v.wellKeyed = true) (hw : w.floatFree = true)
    (hw' : w.wellKeyed = true) (h : dumps nesting floatText v = .ok t)
    (h' : dumps nesting floatText w = .ok t) : v.sortKeys = w.sortKeys := by
  have hdepth : v.depth ≤ max v.depth w.depth ∧ w.depth ≤ max v.depth w.depth := by omega
  have hread := loads_dumps ⟨max v.depth w.depth, false⟩ hv hv' h
  rw [loads_dumps _ hw hw' h', if_pos hdepth.1, if_pos hdepth.2] at hread
  exact (Except.ok.inj hread).symm

end AgentOrch.Json
