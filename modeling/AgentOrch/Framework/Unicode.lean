import AgentOrch.Framework.Text
import Mathlib.Data.List.Sort

/-!
# Unicode data and `repr`

Which characters are alphanumeric, digits, decimal or printable is fixed by the Unicode database
of the interpreter, not by the program.  `Unicode` carries those tables as a parameter, with the
one fact about them that the program relies on: a surrogate is never printable, so `repr` never
puts one into a message.
-/

namespace AgentOrch.Py

/-- The character tables of the interpreter. -/
structure Unicode where
  isAlnum : CodePoint → Bool
  isDigit : CodePoint → Bool
  decimal : CodePoint → Option ℕ
  isPrintable : CodePoint → Bool
  surrogate_not_printable : ∀ c, isSurrogate c = true → isPrintable c = false

/-- `\w`, which is also what `\b` looks at. -/
def Unicode.isWord (u : Unicode) (c : CodePoint) : Bool := u.isAlnum c || c == 0x5F

/-- The tables restricted to ASCII; they agree with every interpreter on ASCII text. -/
def Unicode.ascii : Unicode where
  isAlnum c := isAsciiLetter c || isAsciiDigit c
  isDigit := isAsciiDigit
  decimal c := if isAsciiDigit c then some (c.val - 0x30) else none
  isPrintable c := 0x20 ≤ c.val && c.val ≤ 0x7E
  surrogate_not_printable c h := by
    simp only [isSurrogate, Bool.and_eq_true, decide_eq_true_eq] at h
    simp only [Bool.and_eq_false_iff, decide_eq_false_iff_not]
    omega

/-! ## `repr` -/

def hexChar (n : ℕ) : CodePoint := Fin.ofNat _ (if n < 10 then 0x30 + n else 0x57 + n)

/-- `n` in `width` hexadecimal digits. -/
def hexText : ℕ → ℕ → Text
  | 0, _ => []
  | width + 1, n => hexText width (n / 16) ++ [hexChar (n % 16)]

/-- One character inside a `repr`. -/
def reprChar (u : Unicode) (quote c : CodePoint) : Text :=
  if c = quote ∨ c = 0x5C then [0x5C, c]
  else if c = 0x09 then "\\t"
  else if c = 0x0A then "\\n"
  else if c = 0x0D then "\\r"
  else if u.isPrintable c then [c]
  else if c.val < 0x100 then "\\x" ++ hexText 2 c.val
  else if c.val < 0x10000 then "\\u" ++ hexText 4 c.val
  else "\\U" ++ hexText 8 c.val

/-- `repr(s)`. -/
def repr (u : Unicode) (s : Text) : Text :=
  let quote : CodePoint := if 0x27 ∈ s ∧ 0x22 ∉ s then 0x22 else 0x27
  quote :: s.flatMap (reprChar u quote) ++ [quote]

/-- `repr` of a list of strings. -/
def reprList (u : Unicode) (items : List Text) : Text :=
  "[" ++ join ", " (items.map (repr u)) ++ "]"

/-- The order of strings: code point by code point. -/
def textLe : Text → Text → Bool
  | [], _ => true
  | _ :: _, [] => false
  | a :: s, b :: t => a.val < b.val || (a == b && textLe s t)

lemma textLe_cons {a b : CodePoint} {s t : Text} :
    textLe (a :: s) (b :: t) = true ↔ a < b ∨ (a = b ∧ textLe s t = true) := by
  simp [textLe]

lemma textLe_total (s : Text) : ∀ t, textLe s t = true ∨ textLe t s = true := by
  induction s with
  | nil => intro t; exact .inl rfl
  | cons a s ih =>
      intro t
      cases t with
      | nil => exact .inr rfl
      | cons b t =>
          simp only [textLe_cons]
          rcases lt_trichotomy a b with h | rfl | h
          · exact .inl (.inl h)
          · exact (ih t).imp (fun h => .inr ⟨rfl, h⟩) fun h => .inr ⟨rfl, h⟩
          · exact .inr (.inl h)

lemma textLe_trans {s : Text} : ∀ {t u : Text},
    textLe s t = true → textLe t u = true → textLe s u = true := by
  induction s with
  | nil => intro t u _ _; rfl
  | cons a s ih =>
      intro t u hst htu
      cases t with
      | nil => cases hst
      | cons b t =>
          cases u with
          | nil => cases htu
          | cons c u =>
              rw [textLe_cons] at hst htu ⊢
              rcases hst with hab | ⟨rfl, hst⟩
              · rcases htu with hbc | ⟨rfl, -⟩
                · exact .inl (hab.trans hbc)
                · exact .inl hab
              · rcases htu with hbc | ⟨rfl, htu⟩
                · exact .inl hbc
                · exact .inr ⟨rfl, ih hst htu⟩

lemma textLe_antisymm {s : Text} : ∀ {t : Text},
    textLe s t = true → textLe t s = true → s = t := by
  induction s with
  | nil =>
      intro t _ hts
      cases t with
      | nil => rfl
      | cons b t => cases hts
  | cons a s ih =>
      intro t hst hts
      cases t with
      | nil => cases hst
      | cons b t =>
          rw [textLe_cons] at hst hts
          rcases hst with hab | ⟨rfl, hst⟩
          · rcases hts with hba | ⟨rfl, -⟩
            · exact absurd hab hba.asymm
            · exact absurd hab (lt_irrefl _)
          · rcases hts with hba | ⟨-, hts⟩
            · exact absurd hba (lt_irrefl _)
            · rw [ih hst hts]

/-- `sorted(set(items))`. -/
def sorted (items : List Text) : List Text :=
  items.dedup.insertionSort fun s t => textLe s t = true

/-! ### A message made with `repr` can be encoded -/

lemma encodable_hexText (width : ℕ) : ∀ n, Encodable (hexText width n) := by
  induction width with
  | zero => intro n; exact encodable_nil
  | succ width ih =>
      intro n
      rw [hexText, encodable_append]
      refine ⟨ih _, ?_⟩
      have hlt : n % 16 < 16 := Nat.mod_lt _ (by decide)
      have hdigits : ∀ d < 16, Encodable [hexChar d] := by decide
      exact hdigits _ hlt

lemma encodable_reprChar (u : Unicode) (quote c : CodePoint) (hquote : isSurrogate quote = false) :
    Encodable (reprChar u quote c) := by
  unfold reprChar
  split_ifs with h1 _ _ _ h5
  · have hc : isSurrogate c = false := by
      rcases h1 with rfl | rfl
      · exact hquote
      · decide
    simp only [encodable_cons, hc, encodable_nil, and_true]
    decide
  · exact encodable_ofString _
  · exact encodable_ofString _
  · exact encodable_ofString _
  · have hc : isSurrogate c = false := by
      by_contra hs
      have := u.surrogate_not_printable c (by simpa using hs)
      rw [h5] at this
      cases this
    simp [hc]
  all_goals exact encodable_append.mpr ⟨encodable_ofString _, encodable_hexText _ _⟩

lemma encodable_repr (u : Unicode) (s : Text) : Encodable (repr u s) := by
  have hquote : ∀ q : CodePoint, (q = 0x22 ∨ q = 0x27) →
      Encodable (q :: s.flatMap (reprChar u q) ++ [q]) := by
    intro q hq
    have hq : isSurrogate q = false := by rcases hq with rfl | rfl <;> decide
    simp only [encodable_append, encodable_cons, hq, encodable_nil, and_true, true_and]
    intro c hc
    obtain ⟨d, -, hd⟩ := List.mem_flatMap.mp hc
    exact encodable_reprChar u q d hq c hd
  simp only [repr]
  split_ifs
  · exact hquote _ (.inl rfl)
  · exact hquote _ (.inr rfl)

lemma encodable_join {sep : Text} (hsep : Encodable sep) :
    ∀ {items : List Text}, (∀ t ∈ items, Encodable t) → Encodable (join sep items)
  | [], _ => encodable_nil
  | [t], h => h t List.mem_cons_self
  | t :: s :: rest, h => by
      simp only [join, encodable_append]
      exact ⟨⟨h t List.mem_cons_self, hsep⟩,
        encodable_join hsep fun r hr => h r (List.mem_cons_of_mem _ hr)⟩

lemma encodable_reprList (u : Unicode) (items : List Text) : Encodable (reprList u items) := by
  simp only [reprList, encodable_append]
  refine ⟨⟨encodable_ofString _, encodable_join (encodable_ofString _) ?_⟩, encodable_ofString _⟩
  intro t ht
  obtain ⟨s, -, rfl⟩ := List.mem_map.mp ht
  exact encodable_repr u s

end AgentOrch.Py
