import AgentOrch.Framework.JsonText
import AgentOrch.Framework.Occurrences
import Mathlib.Tactic.IntervalCases

/-!
# Layouts

A writer of JSON chooses the white space between the tokens and how the characters of a string are
spelled.  Whatever it chooses, the scanner cuts what it wrote into the tokens of the value, so it
reads back; and a text without quotes occurs in it only where it occurs in the spelling of a string.
-/

namespace AgentOrch.Json

open Py

/-- What a writer chooses: the white space after an opening bracket, after a comma and before a
closing bracket at each depth, the white space after a colon, the spelling of a string between its
quotes, and the text of a float. -/
structure Layout where
  first : ℕ → Text
  next : ℕ → Text
  close : ℕ → Text
  colon : Text
  spell : Text → Text
  floatText : Binary64 → Text

/-- The white space is white space. -/
structure Layout.Spaced (L : Layout) : Prop where
  first : ∀ d, (L.first d).all isJsonSpace = true
  next : ∀ d, (L.next d).all isJsonSpace = true
  close : ∀ d, (L.close d).all isJsonSpace = true
  colon : L.colon.all isJsonSpace = true

/-- A string literal. -/
def Layout.quoted (L : Layout) (s : Text) : Text := 0x22 :: L.spell s ++ [0x22]

mutual

/-- The text of a value inside `d` containers. -/
def Value.laid (L : Layout) (d : ℕ) : Value → Text
  | .null => "null"
  | .bool true => "true"
  | .bool false => "false"
  | .int n => intText n
  | .float x => L.floatText x
  | .str s => L.quoted s
  | .arr [] => [0x5B, 0x5D]
  | .arr (v :: rest) =>
    0x5B :: L.first d ++ v.laid L (d + 1) ++ laidItems L d rest ++ L.close d ++ [0x5D]
  | .obj [] => [0x7B, 0x7D]
  | .obj ((k, v) :: rest) =>
    0x7B :: L.first d ++ L.quoted k ++ 0x3A :: L.colon ++ v.laid L (d + 1) ++ laidPairs L d rest ++
      L.close d ++ [0x7D]

/-- The items after the first. -/
def laidItems (L : Layout) (d : ℕ) : List Value → Text
  | [] => []
  | v :: rest => 0x2C :: L.next d ++ v.laid L (d + 1) ++ laidItems L d rest

def laidPairs (L : Layout) (d : ℕ) : List (Text × Value) → Text
  | [] => []
  | (k, v) :: rest =>
    0x2C :: L.next d ++ L.quoted k ++ 0x3A :: L.colon ++ v.laid L (d + 1) ++ laidPairs L d rest

end

mutual

/-- The strings of a value, keys included. -/
def Value.strings : Value → List Text
  | .str s => [s]
  | .arr items => stringsItems items
  | .obj items => stringsPairs items
  | _ => []

def stringsItems : List Value → List Text
  | [] => []
  | v :: rest => v.strings ++ stringsItems rest

def stringsPairs : List (Text × Value) → List Text
  | [] => []
  | (k, v) :: rest => k :: v.strings ++ stringsPairs rest

end

/-! ## Reading back -/

/-- A literal reads back as its string, whatever follows it. -/
def Layout.Spells (L : Layout) (s : Text) : Prop :=
  ∀ rest, scan (L.quoted s ++ rest) = .str s :: scan rest

/-- The text of a float reads back, wherever a value may end. -/
def Layout.Renders (L : Layout) (x : Binary64) : Prop :=
  ∀ rest, Ended rest → scan (L.floatText x ++ rest) = .atom (.float x) :: scan rest

section
variable {L : Layout}

lemma ended_cons {c : CodePoint} (h : c = 0x2C ∨ c = 0x5D ∨ c = 0x7D) (t : Text) :
    Ended (c :: t) := (delimited_cons h t).ended

lemma ended_pad {pad : Text} (hpad : pad.all isJsonSpace = true) {t : Text} (ht : Ended t) :
    Ended (pad ++ t) := by
  cases pad with
  | nil => exact ht
  | cons c pad =>
      intro d hd
      obtain rfl : c = d := by simpa using hd
      rw [List.all_cons, Bool.and_eq_true] at hpad
      exact .inr (.inr (.inr hpad.1))

lemma ended_laidItems (d : ℕ) (items : List Value) {t : Text} (ht : Ended t) :
    Ended (laidItems L d items ++ t) := by
  cases items with
  | nil => exact ht
  | cons v items => exact ended_cons (.inl rfl) _

lemma ended_laidPairs (d : ℕ) (items : List (Text × Value)) {t : Text} (ht : Ended t) :
    Ended (laidPairs L d items ++ t) := by
  cases items with
  | nil => exact ht
  | cons p items => exact ended_cons (.inl rfl) _

mutual

/-- The scanner cuts what is laid out into the tokens of the value. -/
lemma scan_laid (hL : L.Spaced) :
    ∀ (v : Value) (d : ℕ) {rest : Text}, (∀ s ∈ v.strings, L.Spells s) →
      (∀ x ∈ v.floats, L.Renders x) → v.shortInts = true → Ended rest →
      scan (v.laid L d ++ rest) = v.tokens ++ scan rest
  | .null, _, rest, _, _, _, _ => scan_null rest
  | .bool true, _, rest, _, _, _, _ => scan_true rest
  | .bool false, _, rest, _, _, _, _ => scan_false rest
  | .int n, _, rest, _, _, hshort, hrest => scan_int n hshort hrest
  | .float x, _, rest, _, hfloats, _, hrest => hfloats x (List.mem_singleton_self x) rest hrest
  | .str s, _, rest, hstrings, _, _, _ => hstrings s (List.mem_singleton_self s) rest
  | .arr [], _, rest, _, _, _, _ => by
      show scan (0x5B :: 0x5D :: rest) = _
      rw [scan_openBracket, scan_closeBracket]
      rfl
  | .arr (v :: items), d, rest, hstrings, hfloats, hshort, _ => by
      simp only [Value.strings, stringsItems, List.forall_mem_append] at hstrings
      simp only [Value.floats, floatsItems, List.forall_mem_append] at hfloats
      simp only [Value.shortInts, shortIntsItems, Bool.and_eq_true] at hshort
      have hclose : Ended (L.close d ++ 0x5D :: rest) :=
        ended_pad (hL.close d) (ended_cons (.inr (.inl rfl)) rest)
      have hnext := ended_laidItems (L := L) d items hclose
      simp only [Value.laid, Value.tokens, List.cons_append, List.append_assoc, List.nil_append]
      rw [scan_openBracket, scan_pad (hL.first d),
        scan_laid hL v (d + 1) hstrings.1 hfloats.1 hshort.1 hnext,
        scan_laidItems hL items d hstrings.2 hfloats.2 hshort.2 hclose, scan_pad (hL.close d),
        scan_closeBracket]
  | .obj [], _, rest, _, _, _, _ => by
      show scan (0x7B :: 0x7D :: rest) = _
      rw [scan_openBrace, scan_closeBrace]
      rfl
  | .obj ((k, v) :: items), d, rest, hstrings, hfloats, hshort, _ => by
      simp only [Value.strings, stringsPairs, List.cons_append, List.forall_mem_cons,
        List.forall_mem_append] at hstrings
      simp only [Value.floats, floatsPairs, List.forall_mem_append] at hfloats
      simp only [Value.shortInts, shortIntsPairs, Bool.and_eq_true] at hshort
      have hclose : Ended (L.close d ++ 0x7D :: rest) :=
        ended_pad (hL.close d) (ended_cons (.inr (.inr rfl)) rest)
      have hnext := ended_laidPairs (L := L) d items hclose
      simp only [Value.laid, Value.tokens, List.cons_append, List.append_assoc, List.nil_append]
      rw [scan_openBrace, scan_pad (hL.first d), hstrings.1, scan_colon, scan_pad hL.colon,
        scan_laid hL v (d + 1) hstrings.2.1 hfloats.1 hshort.1 hnext,
        scan_laidPairs hL items d hstrings.2.2 hfloats.2 hshort.2 hclose, scan_pad (hL.close d),
        scan_closeBrace]

lemma scan_laidItems (hL : L.Spaced) :
    ∀ (items : List Value) (d : ℕ) {rest : Text}, (∀ s ∈ stringsItems items, L.Spells s) →
      (∀ x ∈ floatsItems items, L.Renders x) → shortIntsItems items = true → Ended rest →
      scan (laidItems L d items ++ rest) = tokensItems items ++ scan rest
  | [], _, _, _, _, _, _ => rfl
  | v :: items, d, rest, hstrings, hfloats, hshort, hrest => by
      simp only [stringsItems, List.forall_mem_append] at hstrings
      simp only [floatsItems, List.forall_mem_append] at hfloats
      simp only [shortIntsItems, Bool.and_eq_true] at hshort
      simp only [laidItems, tokensItems, List.cons_append, List.append_assoc]
      rw [scan_comma, scan_pad (hL.next d),
        scan_laid hL v (d + 1) hstrings.1 hfloats.1 hshort.1 (ended_laidItems d items hrest),
        scan_laidItems hL items d hstrings.2 hfloats.2 hshort.2 hrest]

lemma scan_laidPairs (hL : L.Spaced) :
    ∀ (items : List (Text × Value)) (d : ℕ) {rest : Text},
      (∀ s ∈ stringsPairs items, L.Spells s) → (∀ x ∈ floatsPairs items, L.Renders x) →
      shortIntsPairs items = true → Ended rest →
      scan (laidPairs L d items ++ rest) = tokensPairs items ++ scan rest
  | [], _, _, _, _, _, _ => rfl
  | (k, v) :: items, d, rest, hstrings, hfloats, hshort, hrest => by
      simp only [stringsPairs, List.cons_append, List.forall_mem_cons,
        List.forall_mem_append] at hstrings
      simp only [floatsPairs, List.forall_mem_append] at hfloats
      simp only [shortIntsPairs, Bool.and_eq_true] at hshort
      simp only [laidPairs, tokensPairs, List.cons_append, List.append_assoc]
      rw [scan_comma, scan_pad (hL.next d), hstrings.1, scan_colon, scan_pad hL.colon,
        scan_laid hL v (d + 1) hstrings.2.1 hfloats.1 hshort.1 (ended_laidPairs d items hrest),
        scan_laidPairs hL items d hstrings.2.2 hfloats.2 hshort.2 hrest]

end

/-- What is laid out reads back, unless the reader has no room for it. -/
theorem loads_laid (o : Options) (hL : L.Spaced) {v : Value} {d : ℕ}
    (hstrings : ∀ s ∈ v.strings, L.Spells s) (hfloats : ∀ x ∈ v.floats, L.Renders x)
    (hshort : v.shortInts = true) (hkeyed : v.wellKeyed = true) :
    loads o (v.laid L d) = if v.depth ≤ o.nesting then .ok v else .error .recursion := by
  have hscan := @scan_laid L hL v d [] hstrings hfloats hshort delimited_nil.ended
  have hrun := @run_tokens o v .value [] [] (.inl rfl) hkeyed (Nat.zero_le _)
  have hnil : scan [] = [] := rfl
  rw [List.append_nil, hnil] at hscan
  rw [loads, hscan, hrun]
  simp [run]

end

/-! ## Occurrences -/

/-- The characters of what is no string and no white space. -/
def structural : Text := "nulltruefalse-0123456789[]\x7b\x7d,:\""

/-- A character that stands only in strings. -/
structure Layout.Foreign (L : Layout) (c : CodePoint) : Prop where
  structural : c ∉ structural
  space : isJsonSpace c = false

section
variable {L : Layout} {sub : Text} {c : CodePoint}

lemma notMem_pad (hc : isJsonSpace c = false) {pad : Text} (hpad : pad.all isJsonSpace = true) :
    c ∉ pad := by
  intro h
  rw [List.all_eq_true.mp hpad c h] at hc
  cases hc

lemma notMem_of_subset (hc : c ∉ structural) {t : Text} (ht : t ⊆ structural) : c ∉ t :=
  fun h => hc (ht h)

lemma intText_subset (n : ℤ) : intText n ⊆ structural := by
  have hdigits : ∀ m : ℕ, natText m ⊆ structural := by
    intro m c hc
    have hdigit := isAsciiDigit_natText hc
    have hall : ∀ c : CodePoint, isAsciiDigit c = true → c ∈ structural := by
      intro c hc
      simp only [isAsciiDigit, Bool.and_eq_true, decide_eq_true_eq] at hc
      obtain ⟨c, hlt⟩ := c
      obtain ⟨hlow, hhigh⟩ := hc
      simp only at hlow hhigh
      interval_cases c <;> decide +revert
    exact hall c hdigit
  unfold intText
  split_ifs
  · exact List.cons_subset.mpr ⟨by decide, hdigits _⟩
  · exact hdigits _

lemma infix_quoted (hquote : (0x22 : CodePoint) ∉ sub) (hhead : sub.head? = some c)
    (hc : c ∉ structural) (s rest : Text) :
    sub <:+: L.quoted s ++ rest ↔ sub <:+: L.spell s ∨ sub <:+: rest := by
  have hsplit : L.quoted s ++ rest = [0x22] ++ (L.spell s ++ 0x22 :: rest) := by
    simp [Layout.quoted]
  rw [hsplit, infix_plain_append hhead (notMem_of_subset hc (by decide)), infix_separated hquote]

mutual

/-- A text without quotes occurs in what is laid out where it occurs in a string. -/
lemma infix_laid (hL : L.Spaced) (hquote : (0x22 : CodePoint) ∉ sub) (hhead : sub.head? = some c)
    (hc : L.Foreign c) :
    ∀ (v : Value) (d : ℕ) (rest : Text), (∀ x ∈ v.floats, c ∉ L.floatText x) →
      (sub <:+: v.laid L d ++ rest ↔ (∃ s ∈ v.strings, sub <:+: L.spell s) ∨ sub <:+: rest)
  | .null, _, rest, _ => by
      rw [Value.laid, infix_plain_append hhead (notMem_of_subset hc.structural (by decide))]
      simp [Value.strings]
  | .bool true, _, rest, _ => by
      rw [Value.laid, infix_plain_append hhead (notMem_of_subset hc.structural (by decide))]
      simp [Value.strings]
  | .bool false, _, rest, _ => by
      rw [Value.laid, infix_plain_append hhead (notMem_of_subset hc.structural (by decide))]
      simp [Value.strings]
  | .int n, _, rest, _ => by
      rw [Value.laid, infix_plain_append hhead (notMem_of_subset hc.structural (intText_subset n))]
      simp [Value.strings]
  | .float x, _, rest, hfloats => by
      rw [Value.laid, infix_plain_append hhead (hfloats x (List.mem_singleton_self x))]
      simp [Value.strings]
  | .str s, _, rest, _ => by
      rw [Value.laid, infix_quoted hquote hhead hc.structural]
      simp [Value.strings]
  | .arr [], _, rest, _ => by
      rw [Value.laid, infix_plain_append hhead (notMem_of_subset hc.structural (by decide))]
      simp [Value.strings, stringsItems]
  | .arr (v :: items), d, rest, hfloats => by
      simp only [Value.floats, floatsItems, List.forall_mem_append] at hfloats
      have hopen : c ∉ 0x5B :: L.first d := by
        rw [List.mem_cons, not_or]
        exact ⟨fun h => hc.structural (h ▸ by decide), notMem_pad hc.space (hL.first d)⟩
      have hclose : c ∉ L.close d ++ [0x5D] := by
        rw [List.mem_append, not_or]
        exact ⟨notMem_pad hc.space (hL.close d), notMem_of_subset hc.structural (by decide)⟩
      have hsplit : (Value.arr (v :: items)).laid L d ++ rest = (0x5B :: L.first d) ++
          (v.laid L (d + 1) ++ (laidItems L d items ++ ((L.close d ++ [0x5D]) ++ rest))) := by
        simp [Value.laid]
      rw [hsplit, infix_plain_append hhead hopen,
        infix_laid hL hquote hhead hc v (d + 1) _ hfloats.1,
        infix_laidItems hL hquote hhead hc items d _ hfloats.2, infix_plain_append hhead hclose]
      simp only [Value.strings, stringsItems, List.mem_append, or_and_right, exists_or, or_assoc]
  | .obj [], _, rest, _ => by
      rw [Value.laid, infix_plain_append hhead (notMem_of_subset hc.structural (by decide))]
      simp [Value.strings, stringsPairs]
  | .obj ((k, v) :: items), d, rest, hfloats => by
      simp only [Value.floats, floatsPairs, List.forall_mem_append] at hfloats
      have hopen : c ∉ 0x7B :: L.first d := by
        rw [List.mem_cons, not_or]
        exact ⟨fun h => hc.structural (h ▸ by decide), notMem_pad hc.space (hL.first d)⟩
      have hcolon : c ∉ 0x3A :: L.colon := by
        rw [List.mem_cons, not_or]
        exact ⟨fun h => hc.structural (h ▸ by decide), notMem_pad hc.space hL.colon⟩
      have hclose : c ∉ L.close d ++ [0x7D] := by
        rw [List.mem_append, not_or]
        exact ⟨notMem_pad hc.space (hL.close d), notMem_of_subset hc.structural (by decide)⟩
      have hsplit : (Value.obj ((k, v) :: items)).laid L d ++ rest = (0x7B :: L.first d) ++
          (L.quoted k ++ ((0x3A :: L.colon) ++ (v.laid L (d + 1) ++
            (laidPairs L d items ++ ((L.close d ++ [0x7D]) ++ rest))))) := by
        simp [Value.laid]
      rw [hsplit, infix_plain_append hhead hopen, infix_quoted hquote hhead hc.structural,
        infix_plain_append hhead hcolon, infix_laid hL hquote hhead hc v (d + 1) _ hfloats.1,
        infix_laidPairs hL hquote hhead hc items d _ hfloats.2, infix_plain_append hhead hclose]
      simp only [Value.strings, stringsPairs, List.cons_append, List.mem_cons, List.mem_append,
        or_and_right, exists_or, exists_eq_left, or_assoc]

lemma infix_laidItems (hL : L.Spaced) (hquote : (0x22 : CodePoint) ∉ sub)
    (hhead : sub.head? = some c) (hc : L.Foreign c) :
    ∀ (items : List Value) (d : ℕ) (rest : Text), (∀ x ∈ floatsItems items, c ∉ L.floatText x) →
      (sub <:+: laidItems L d items ++ rest ↔
        (∃ s ∈ stringsItems items, sub <:+: L.spell s) ∨ sub <:+: rest)
  | [], _, rest, _ => by simp [laidItems, stringsItems]
  | v :: items, d, rest, hfloats => by
      simp only [floatsItems, List.forall_mem_append] at hfloats
      have hcomma : c ∉ 0x2C :: L.next d := by
        rw [List.mem_cons, not_or]
        exact ⟨fun h => hc.structural (h ▸ by decide), notMem_pad hc.space (hL.next d)⟩
      have hsplit : laidItems L d (v :: items) ++ rest =
          (0x2C :: L.next d) ++ (v.laid L (d + 1) ++ (laidItems L d items ++ rest)) := by
        simp [laidItems]
      rw [hsplit, infix_plain_append hhead hcomma,
        infix_laid hL hquote hhead hc v (d + 1) _ hfloats.1,
        infix_laidItems hL hquote hhead hc items d _ hfloats.2]
      simp only [stringsItems, List.mem_append, or_and_right, exists_or, or_assoc]

lemma infix_laidPairs (hL : L.Spaced) (hquote : (0x22 : CodePoint) ∉ sub)
    (hhead : sub.head? = some c) (hc : L.Foreign c) :
    ∀ (items : List (Text × Value)) (d : ℕ) (rest : Text),
      (∀ x ∈ floatsPairs items, c ∉ L.floatText x) →
      (sub <:+: laidPairs L d items ++ rest ↔
        (∃ s ∈ stringsPairs items, sub <:+: L.spell s) ∨ sub <:+: rest)
  | [], _, rest, _ => by simp [laidPairs, stringsPairs]
  | (k, v) :: items, d, rest, hfloats => by
      simp only [floatsPairs, List.forall_mem_append] at hfloats
      have hcomma : c ∉ 0x2C :: L.next d := by
        rw [List.mem_cons, not_or]
        exact ⟨fun h => hc.structural (h ▸ by decide), notMem_pad hc.space (hL.next d)⟩
      have hcolon : c ∉ 0x3A :: L.colon := by
        rw [List.mem_cons, not_or]
        exact ⟨fun h => hc.structural (h ▸ by decide), notMem_pad hc.space hL.colon⟩
      have hsplit : laidPairs L d ((k, v) :: items) ++ rest = (0x2C :: L.next d) ++
          (L.quoted k ++ ((0x3A :: L.colon) ++ (v.laid L (d + 1) ++
            (laidPairs L d items ++ rest)))) := by
        simp [laidPairs]
      rw [hsplit, infix_plain_append hhead hcomma, infix_quoted hquote hhead hc.structural,
        infix_plain_append hhead hcolon, infix_laid hL hquote hhead hc v (d + 1) _ hfloats.1,
        infix_laidPairs hL hquote hhead hc items d _ hfloats.2]
      simp only [stringsPairs, List.cons_append, List.mem_cons, List.mem_append,
        or_and_right, exists_or, exists_eq_left, or_assoc]

end

end

/-! ## Writing characters as they are -/

/-- `ensure_ascii=False`: only quotes, backslashes and control characters are escaped. -/
def spellRaw (s : Text) : Text := s.flatMap escapeChar

/-- The characters an escape is made of. -/
def escapes : Text := "\\\"bfnrtu0123456789abcdef"

lemma hexText_subset (n value : ℕ) : hexText n value ⊆ escapes := by
  have hdigit : ∀ d < 16, hexChar d ∈ escapes := by decide
  induction n generalizing value with
  | zero => exact List.nil_subset _
  | succ n ih =>
      refine List.append_subset.mpr ⟨ih _, ?_⟩
      intro c hc
      rw [List.mem_singleton.mp hc]
      exact hdigit _ (Nat.mod_lt _ (by decide))

/-- A character stands for itself, or an escape stands for it. -/
lemma escapeChar_cases (c : CodePoint) :
    escapeChar c = [c] ∧ c ≠ 0x5C ∨ escapeChar c ≠ [c] ∧ 0x5C ∈ (escapeChar c).head? ∧
      escapeChar c ⊆ escapes := by
  by_cases hquote : c = 0x22 ∨ c = 0x5C
  · refine .inr ?_
    rw [escapeChar, if_pos hquote]
    refine ⟨by simp, by simp, ?_⟩
    rcases hquote with rfl | rfl <;> decide
  by_cases hsmall : c.val < 0x20
  · refine .inr ?_
    have hsub := hexText_subset 4 c.val
    have hbackslash : (0x5C : CodePoint) ∈ escapes := by decide
    have hu : (0x75 : CodePoint) ∈ escapes := by decide
    unfold escapeChar
    rw [if_neg hquote]
    split_ifs with h1 h2 h3 h4 h5
    · exact ⟨by simp, by simp, by decide⟩
    · exact ⟨by simp, by simp, by decide⟩
    · exact ⟨by simp, by simp, by decide⟩
    · exact ⟨by simp, by simp, by decide⟩
    · exact ⟨by simp, by simp, by decide⟩
    · exact ⟨by simp, by simp, List.cons_subset.mpr ⟨hbackslash, List.cons_subset.mpr ⟨hu, hsub⟩⟩⟩
  · refine .inl ⟨?_, fun h => hquote (.inr h)⟩
    have hne : ∀ d : CodePoint, d.val < 0x20 → c ≠ d := by
      rintro d hd rfl
      exact hsmall hd
    rw [escapeChar, if_neg hquote, if_neg (hne _ (by decide)), if_neg (hne _ (by decide)),
      if_neg (hne _ (by decide)), if_neg (hne _ (by decide)), if_neg (hne _ (by decide)),
      if_neg hsmall]

/-- How the characters of a string are spelled: each as itself, or by an escape. -/
def Spelling (f : CodePoint → Text) : Prop :=
  ∀ c, f c = [c] ∧ c ≠ 0x5C ∨ f c ≠ [c] ∧ 0x5C ∈ (f c).head? ∧ f c ⊆ escapes

section
variable {sub : Text} {c : CodePoint} {f : CodePoint → Text}

lemma prefix_spelled (hf : Spelling f) (hplain : ∀ d ∈ sub, f d = [d] ∧ d ≠ 0x5C) :
    ∀ {s : Text}, sub <+: s.flatMap f ↔ sub <+: s := by
  induction sub with
  | nil => simp
  | cons d sub ih =>
      obtain ⟨hd, hsub⟩ := List.forall_mem_cons.mp hplain
      intro s
      cases s with
      | nil => simp
      | cons e s =>
          rw [List.flatMap_cons]
          rcases hf e with ⟨he, -⟩ | ⟨hne, hhead, -⟩
          · rw [he, List.singleton_append, List.cons_prefix_cons, List.cons_prefix_cons, ih hsub]
          · obtain ⟨t, ht⟩ : ∃ t, f e = 0x5C :: t := by
              cases hchar : f e with
              | nil => rw [hchar] at hhead; cases hhead
              | cons g t =>
                  rw [hchar] at hhead
                  obtain rfl : g = 0x5C := by simpa using hhead
                  exact ⟨t, rfl⟩
            rw [ht, List.cons_append, List.cons_prefix_cons, List.cons_prefix_cons]
            constructor
            · rintro ⟨heq, -⟩
              exact absurd heq hd.2
            · rintro ⟨rfl, -⟩
              exact absurd hd.1 hne

/-- A text of characters that stand for themselves occurs where it occurred. -/
lemma infix_spelled (hf : Spelling f) (hplain : ∀ d ∈ sub, f d = [d] ∧ d ≠ 0x5C)
    (hhead : sub.head? = some c) (hc : c ∉ escapes) :
    ∀ {s : Text}, sub <:+: s.flatMap f ↔ sub <:+: s := by
  intro s
  induction s with
  | nil => rfl
  | cons e s ih =>
      have hprefix := @prefix_spelled sub f hf hplain (e :: s)
      rw [List.flatMap_cons] at hprefix ⊢
      rw [List.infix_cons_iff]
      rcases hf e with ⟨he, -⟩ | ⟨hne, -, hsubset⟩
      · rw [he, List.singleton_append] at hprefix ⊢
        rw [List.infix_cons_iff, hprefix, ih]
      · have hnot : ¬ sub <+: e :: s := by
          rintro ⟨after, h⟩
          cases sub with
          | nil => cases hhead
          | cons d sub =>
              obtain ⟨rfl, -⟩ := List.cons.inj h
              exact hne (hplain d List.mem_cons_self).1
        rw [infix_plain_append hhead fun h => hc (hsubset h), ih]
        simp [hnot]

lemma infix_spellRaw (hplain : ∀ d ∈ sub, escapeChar d = [d] ∧ d ≠ 0x5C)
    (hhead : sub.head? = some c) (hc : c ∉ escapes) {s : Text} :
    sub <:+: spellRaw s ↔ sub <:+: s :=
  infix_spelled escapeChar_cases hplain hhead hc

end

/-! ## Indented text -/

/-- `json.dumps(v, ensure_ascii=False, indent=width)`. -/
def Layout.indented (width : ℕ) (floatText : Binary64 → Text) : Layout where
  first d := 0x0A :: List.replicate (width * (d + 1)) 0x20
  next d := 0x0A :: List.replicate (width * (d + 1)) 0x20
  close d := 0x0A :: List.replicate (width * d) 0x20
  colon := [0x20]
  spell := spellRaw
  floatText := floatText

lemma Layout.indented_spaced (width : ℕ) (floatText : Binary64 → Text) :
    (Layout.indented width floatText).Spaced := by
  have hpad : ∀ n, (0x0A :: List.replicate n (0x20 : CodePoint)).all isJsonSpace = true := by
    intro n
    rw [List.all_cons, Bool.and_eq_true, List.all_eq_true]
    refine ⟨by decide, ?_⟩
    intro c hc
    rw [List.eq_of_mem_replicate hc]
    decide
  have hcolon : ([0x20] : Text).all isJsonSpace = true := by decide
  exact ⟨fun d => hpad _, fun d => hpad _, fun d => hpad _, hcolon⟩

lemma Layout.indented_spells (width : ℕ) (floatText : Binary64 → Text) (s : Text) :
    (Layout.indented width floatText).Spells s := by
  intro rest
  have hquoted : (Layout.indented width floatText).quoted s = 0x22 :: escaped s := by
    simp [Layout.quoted, Layout.indented, spellRaw, escaped]
  rw [hquoted]
  exact scan_string s rest

/-! ## Sorting -/

lemma shortIntsPairs_iff {items : List (Text × Value)} :
    shortIntsPairs items = true ↔ ∀ p ∈ items, p.2.shortInts = true := by
  induction items with
  | nil => simp [shortIntsPairs]
  | cons p items ih => simp [shortIntsPairs, ih]

lemma mem_stringsPairs {items : List (Text × Value)} {s : Text} :
    s ∈ stringsPairs items ↔ ∃ p ∈ items, s = p.1 ∨ s ∈ p.2.strings := by
  induction items with
  | nil => simp [stringsPairs]
  | cons p items ih => simp [stringsPairs, ih, or_assoc]

mutual

lemma shortInts_sortKeys : ∀ v : Value, v.shortInts = true → v.sortKeys.shortInts = true
  | .null, h | .bool _, h | .int _, h | .float _, h | .str _, h => h
  | .arr items, h => shortInts_sortItems items h
  | .obj items, h => by
      have hsorted := shortInts_sortPairs items h
      have hperm := List.perm_insertionSort keyLe (sortPairs items)
      rw [Value.sortKeys]
      show shortIntsPairs _ = true
      rw [shortIntsPairs_iff] at hsorted ⊢
      exact fun p hp => hsorted p (hperm.mem_iff.mp hp)

lemma shortInts_sortItems : ∀ items : List Value,
    shortIntsItems items = true → shortIntsItems (sortItems items) = true
  | [], _ => rfl
  | v :: items, h => by
      simp only [sortItems, shortIntsItems, Bool.and_eq_true] at h ⊢
      exact ⟨shortInts_sortKeys v h.1, shortInts_sortItems items h.2⟩

lemma shortInts_sortPairs : ∀ items : List (Text × Value),
    shortIntsPairs items = true → shortIntsPairs (sortPairs items) = true
  | [], _ => rfl
  | (k, v) :: items, h => by
      simp only [sortPairs, shortIntsPairs, Bool.and_eq_true] at h ⊢
      exact ⟨shortInts_sortKeys v h.1, shortInts_sortPairs items h.2⟩

end

mutual

lemma mem_strings_sortKeys : ∀ (v : Value) {s : Text}, s ∈ v.sortKeys.strings ↔ s ∈ v.strings
  | .null, _ | .bool _, _ | .int _, _ | .float _, _ | .str _, _ => Iff.rfl
  | .arr items, s => mem_strings_sortItems items
  | .obj items, s => by
      have hperm := List.perm_insertionSort keyLe (sortPairs items)
      have hsorted := @mem_strings_sortPairs items s
      rw [mem_stringsPairs] at hsorted
      rw [Value.sortKeys]
      show s ∈ stringsPairs _ ↔ _
      rw [mem_stringsPairs]
      simp only [hperm.mem_iff]
      exact hsorted

lemma mem_strings_sortItems : ∀ (items : List Value) {s : Text},
    s ∈ stringsItems (sortItems items) ↔ s ∈ stringsItems items
  | [], _ => Iff.rfl
  | v :: items, s => by
      simp only [sortItems, stringsItems, List.mem_append, mem_strings_sortKeys v,
        mem_strings_sortItems items]

lemma mem_strings_sortPairs : ∀ (items : List (Text × Value)) {s : Text},
    s ∈ stringsPairs (sortPairs items) ↔ s ∈ stringsPairs items
  | [], _ => Iff.rfl
  | (k, v) :: items, s => by
      simp only [sortPairs, stringsPairs, List.cons_append, List.mem_cons, List.mem_append,
        mem_strings_sortKeys v, mem_strings_sortPairs items]

end

end AgentOrch.Json
