import AgentOrch.Framework.Utf8

/-!
# Base64

Three bytes become four characters of a 64-letter alphabet; one or two bytes at the end are padded.
`decode` follows `binascii`: characters outside the alphabet are passed over, and the padding ends the
text.  What was encoded decodes to itself.
-/

namespace AgentOrch.Py.Base64

/-! ## The alphabet -/

/-- The character of a six-bit value. -/
def digit (v : ℕ) : CodePoint :=
  Fin.ofNat _ (if v < 26 then 0x41 + v
    else if v < 52 then 0x61 + (v - 26)
    else if v < 62 then 0x30 + (v - 52)
    else if v = 62 then 0x2B
    else 0x2F)

/-- The value of a character of the alphabet. -/
def digitValue (c : CodePoint) : Option ℕ :=
  if 0x41 ≤ c.val ∧ c.val ≤ 0x5A then some (c.val - 0x41)
  else if 0x61 ≤ c.val ∧ c.val ≤ 0x7A then some (c.val - 0x61 + 26)
  else if 0x30 ≤ c.val ∧ c.val ≤ 0x39 then some (c.val - 0x30 + 52)
  else if c.val = 0x2B then some 62
  else if c.val = 0x2F then some 63
  else none

/-- The padding. -/
def pad : CodePoint := 0x3D

lemma digit_spec : ∀ v < 64, digitValue (digit v) = some v ∧ digit v ≠ pad ∧ (digit v).val < 128 := by
  decide +kernel

lemma digitValue_digit {v : ℕ} (h : v < 64) : digitValue (digit v) = some v := (digit_spec v h).1

lemma digit_ne_pad {v : ℕ} (h : v < 64) : digit v ≠ pad := (digit_spec v h).2.1

/-! ## Encoding -/

/-- `base64.b64encode` -/
def encode : Bytes → Text
  | [] => []
  | [a] => [digit (a / 4), digit (a % 4 * 16), pad, pad]
  | [a, b] => [digit (a / 4), digit (a % 4 * 16 + b / 16), digit (b % 16 * 4), pad]
  | a :: b :: c :: rest =>
    digit (a / 4) :: digit (a % 4 * 16 + b / 16) :: digit (b % 16 * 4 + c / 64) ::
      digit (c % 64) :: encode rest

/-! ## Decoding -/

/-- How far a group of four has been read, and what is left over of its last character. -/
inductive Quad
  | zero
  | one (left : ℕ)
  | two (left : ℕ)
  | three (left : ℕ)
  deriving DecidableEq

def Quad.position : Quad → ℕ
  | .zero => 0
  | .one _ => 1
  | .two _ => 2
  | .three _ => 3

/-- What a value adds to a group: the group after it, and the byte it completes. -/
def Quad.next (v : ℕ) : Quad → Quad × Option Byte
  | .zero => (.one v, none)
  | .one left => (.two (v % 16), some (Fin.ofNat _ (left * 4 + v / 16)))
  | .two left => (.three (v % 4), some (Fin.ofNat _ (left * 16 + v / 4)))
  | .three left => (.zero, some (Fin.ofNat _ (left * 64 + v)))

/-- The loop of `binascii.a2b_base64`, which counts the padding seen in a group. -/
def decodeFrom : Quad → ℕ → Text → Option Bytes
  | quad, _, [] => if quad = .zero then some [] else none
  | quad, pads, c :: rest =>
    if c = pad then
      if 2 ≤ quad.position then
        if 4 ≤ quad.position + (pads + 1) then some [] else decodeFrom quad (pads + 1) rest
      else decodeFrom quad pads rest
    else match digitValue c with
      | none => decodeFrom quad pads rest
      | some v =>
        let (quad, byte) := quad.next v
        (decodeFrom quad 0 rest).map fun bytes => byte.toList ++ bytes

/-- `base64.b64decode` of a text, which has to be ASCII. -/
def decode (t : Text) : Option Bytes :=
  if t.all fun c => decide (c.val < 128) then decodeFrom .zero 0 t else none

/-! ## The round trip -/

lemma decodeFrom_digit {quad : Quad} {pads v : ℕ} {rest : Text} (h : v < 64) :
    decodeFrom quad pads (digit v :: rest) =
      (decodeFrom (quad.next v).1 0 rest).map fun bytes => (quad.next v).2.toList ++ bytes := by
  rw [decodeFrom, if_neg (digit_ne_pad h), digitValue_digit h]

lemma ofNat_byte {b : Byte} {n : ℕ} (h : n = b.val) : (Fin.ofNat 256 n : Byte) = b := by
  subst h
  exact Fin.ofNat_val_eq_self b

lemma decodeFrom_encode (bytes : Bytes) : decodeFrom .zero 0 (encode bytes) = some bytes := by
  induction bytes using encode.induct with
  | case1 => rfl
  | case2 a =>
      have ha := a.isLt
      have hbyte : (Fin.ofNat 256 (a.val / 4 * 4 + a.val % 4 * 16 / 16) : Byte) = a :=
        ofNat_byte (by omega)
      rw [encode, decodeFrom_digit (by omega), Quad.next, decodeFrom_digit (by omega), Quad.next]
      simp only [hbyte]
      simp [decodeFrom, Quad.position]
  | case3 a b =>
      have ha := a.isLt
      have hb := b.isLt
      have hfirst : (Fin.ofNat 256 (a.val / 4 * 4 + (a.val % 4 * 16 + b.val / 16) / 16) : Byte) = a :=
        ofNat_byte (by omega)
      have hsecond : (Fin.ofNat 256 ((a.val % 4 * 16 + b.val / 16) % 16 * 16 +
          b.val % 16 * 4 / 4) : Byte) = b :=
        ofNat_byte (by omega)
      rw [encode, decodeFrom_digit (by omega), Quad.next, decodeFrom_digit (by omega), Quad.next,
        decodeFrom_digit (by omega), Quad.next]
      simp only [hfirst, hsecond]
      simp [decodeFrom, Quad.position]
  | case4 a b c rest ih =>
      have ha := a.isLt
      have hb := b.isLt
      have hc := c.isLt
      have hfirst : (Fin.ofNat 256 (a.val / 4 * 4 + (a.val % 4 * 16 + b.val / 16) / 16) : Byte) = a :=
        ofNat_byte (by omega)
      have hsecond : (Fin.ofNat 256 ((a.val % 4 * 16 + b.val / 16) % 16 * 16 +
          (b.val % 16 * 4 + c.val / 64) / 4) : Byte) = b :=
        ofNat_byte (by omega)
      have hthird : (Fin.ofNat 256 ((b.val % 16 * 4 + c.val / 64) % 4 * 64 + c.val % 64) : Byte) = c :=
        ofNat_byte (by omega)
      rw [encode, decodeFrom_digit (by omega), Quad.next, decodeFrom_digit (by omega), Quad.next,
        decodeFrom_digit (by omega), Quad.next, decodeFrom_digit (by omega), Quad.next]
      simp only [hfirst, hsecond, hthird]
      simp [ih]

lemma encode_ascii (bytes : Bytes) : ∀ c ∈ encode bytes, c.val < 128 := by
  have hdigit : ∀ {v : ℕ}, v < 64 → (digit v).val < 128 := fun h => (digit_spec _ h).2.2
  have hpad : pad.val < 128 := by decide
  induction bytes using encode.induct with
  | case1 => simp [encode]
  | case2 a =>
      have ha := a.isLt
      simp only [encode, List.forall_mem_cons]
      exact ⟨hdigit (by omega), hdigit (by omega), hpad, hpad, by simp⟩
  | case3 a b =>
      have ha := a.isLt
      have hb := b.isLt
      simp only [encode, List.forall_mem_cons]
      exact ⟨hdigit (by omega), hdigit (by omega), hdigit (by omega), hpad, by simp⟩
  | case4 a b c rest ih =>
      have ha := a.isLt
      have hb := b.isLt
      have hc := c.isLt
      simp only [encode, List.forall_mem_cons]
      exact ⟨hdigit (by omega), hdigit (by omega), hdigit (by omega), hdigit (by omega), ih⟩

/-- What was encoded decodes to itself. -/
theorem decode_encode (bytes : Bytes) : decode (encode bytes) = some bytes := by
  have hascii : ((encode bytes).all fun c => decide (c.val < 128)) = true := by
    simpa using encode_ascii bytes
  rw [decode, if_pos hascii]
  exact decodeFrom_encode bytes

example : encode [0x4D, 0x61, 0x6E, 0x0A] = ("TWFuCg==" : Text) := by decide

end AgentOrch.Py.Base64
