import AgentOrch.Framework.Utf8
import Mathlib.Data.List.Lex
import Mathlib.Order.Fin.Basic

/-!
# The order of UTF-8

A database compares the octets of two texts, a program their code points.  UTF-8 was laid out so
that both say the same.
-/

namespace AgentOrch.Py

/-- Of two numbers, the smaller one is smaller at the first digit they differ in. -/
private lemma digits_lt {a₁ a₂ a₃ a₄ b₁ b₂ b₃ b₄ : ℕ} (ha₂ : a₂ < 64) (ha₃ : a₃ < 64)
    (ha₄ : a₄ < 64) (h : a₁ * 262144 + a₂ * 4096 + a₃ * 64 + a₄ < b₁ * 262144 + b₂ * 4096 + b₃ * 64 + b₄)
    (hb₂ : b₂ < 64) (hb₃ : b₃ < 64) (hb₄ : b₄ < 64) :
    a₁ < b₁ ∨ a₁ = b₁ ∧ (a₂ < b₂ ∨ a₂ = b₂ ∧ (a₃ < b₃ ∨ a₃ = b₃ ∧ a₄ < b₄)) := by
  omega

/-- Code points beyond the first plane take four octets, one for each digit. -/
private lemma encodeChar_append_lt_of_four {c d : CodePoint} (h : c < d) (hc : 0x10000 ≤ c.val)
    (bs bs' : Bytes) : encodeChar c ++ bs < encodeChar d ++ bs' := by
  have hlt : c.val < d.val := h
  have hd : d.val < 0x110000 := d.isLt
  have hdigits : ∀ n : ℕ,
      n = n / 262144 * 262144 + n / 4096 % 64 * 4096 + n / 64 % 64 * 64 + n % 64 := by
    intro n
    omega
  rw [hdigits c.val, hdigits d.val] at hlt
  have hlex := digits_lt (Nat.mod_lt _ (by decide)) (Nat.mod_lt _ (by decide))
    (Nat.mod_lt _ (by decide)) hlt (Nat.mod_lt _ (by decide)) (Nat.mod_lt _ (by decide))
    (Nat.mod_lt _ (by decide))
  have hlead : ∀ n : ℕ, n < 0x110000 → (0xF0 + n / 262144) % 256 = 0xF0 + n / 262144 := by
    intro n hn
    omega
  have htail : ∀ n : ℕ, (0x80 + n % 64) % 256 = 0x80 + n % 64 := by
    intro n
    omega
  simp only [encodeChar, if_neg (show ¬ c.val < 0x80 by omega),
    if_neg (show ¬ c.val < 0x800 by omega), if_neg (show ¬ c.val < 0x10000 by omega),
    if_neg (show ¬ d.val < 0x80 by omega), if_neg (show ¬ d.val < 0x800 by omega),
    if_neg (show ¬ d.val < 0x10000 by omega), List.cons_append, List.nil_append,
    List.cons_lt_cons_iff, Fin.lt_def, Fin.ext_iff, Fin.val_ofNat, hlead _ c.isLt, hlead _ hd,
    htail, Nat.add_lt_add_iff_left, Nat.add_left_cancel_iff]
  exact hlex.imp_right fun h₁ => ⟨h₁.1, h₁.2.imp_right fun h₂ => ⟨h₂.1, h₂.2.imp_right fun h₃ =>
    ⟨h₃.1, .inl h₃.2⟩⟩⟩

/-- The octets of a smaller code point come first, whatever follows them. -/
lemma encodeChar_append_lt {c d : CodePoint} (h : c < d) (bs bs' : Bytes) :
    encodeChar c ++ bs < encodeChar d ++ bs' := by
  by_cases hc : 0x10000 ≤ c.val
  · exact encodeChar_append_lt_of_four h hc bs bs'
  · have hlt : c.val < d.val := h
    have hd : d.val < 0x110000 := d.isLt
    unfold encodeChar
    dsimp only
    split_ifs <;>
      simp only [List.cons_append, List.nil_append, List.cons_lt_cons_iff, Fin.lt_def, Fin.ext_iff,
        Fin.val_ofNat] <;>
      omega

lemma encodeChar_ne_nil (c : CodePoint) : encodeChar c ≠ [] := by
  unfold encodeChar
  dsimp only
  split_ifs <;> exact List.cons_ne_nil _ _

lemma encode_lt_of_lt : ∀ {s t : Text}, s < t → s.flatMap encodeChar < t.flatMap encodeChar
  | _, [], h => absurd h (List.not_lt_nil _)
  | [], d :: t, _ => by
      obtain ⟨b, bs, hd⟩ := List.exists_cons_of_ne_nil (encodeChar_ne_nil d)
      rw [List.flatMap_nil, List.flatMap_cons, hd, List.cons_append]
      exact List.nil_lt_cons _ _
  | c :: s, d :: t, h => by
      rw [List.flatMap_cons, List.flatMap_cons]
      rcases List.cons_lt_cons_iff.mp h with hcd | ⟨rfl, hst⟩
      · exact encodeChar_append_lt hcd _ _
      · exact List.append_left_lt (encode_lt_of_lt hst)

/-- The octets of two texts are in the order of their code points. -/
theorem encode_lt_iff {s t : Text} : s.flatMap encodeChar < t.flatMap encodeChar ↔ s < t := by
  constructor
  · intro h
    rcases lt_trichotomy s t with hlt | rfl | hgt
    · exact hlt
    · exact absurd h (lt_irrefl _)
    · exact absurd (encode_lt_of_lt hgt) h.asymm
  · exact encode_lt_of_lt

end AgentOrch.Py
