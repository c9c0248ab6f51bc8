import AgentOrch.Framework.JsonLayout
import AgentOrch.Framework.JsonShape
import Mathlib.Data.List.Chain

/-!
# JSON in ASCII

`json.dumps` writes ASCII unless it is told otherwise: any other character becomes one escape, or two
for the halves of a surrogate pair.  The reader joins two halves that stand side by side, whatever
they were written for, so a string reads back where no high surrogate stands before a low one.
-/

namespace AgentOrch.Json

open Py

/-! ## The writer -/

/-- `\uXXXX`. -/
def unicodeEscape (n : ℕ) : Text := 0x5C :: 0x75 :: hexText 4 n

/-- One character inside a string literal in ASCII. -/
def asciiChar (c : CodePoint) : Text :=
  if c.val < 0x7F then escapeChar c
  else if c.val < 0x10000 then unicodeEscape c.val
  else unicodeEscape (0xD800 + (c.val - 0x10000) / 0x400) ++
    unicodeEscape (0xDC00 + (c.val - 0x10000) % 0x400)

/-- `ensure_ascii=True`. -/
def spellAscii (s : Text) : Text := s.flatMap asciiChar

/-- No high surrogate stands right before a low one. -/
def PairFree (s : Text) : Prop :=
  s.IsChain fun c d => ¬ (isHighSurrogate c.val = true ∧ isLowSurrogate d.val = true)

/-- `json.dumps(v)`, with its usual separators. -/
def Layout.plain (floatText : Binary64 → Text) : Layout where
  first _ := []
  next _ := [0x20]
  close _ := []
  colon := [0x20]
  spell := spellAscii
  floatText := floatText

/-! ## Reading back -/

section
variable {c : CodePoint} {s : Text}

lemma scanPieces_unicodeEscape {n : ℕ} (h : n < 0x10000) (t : Text) :
    scanPieces .normal (unicodeEscape n ++ t) =
      (scanPieces .normal t).map fun r => (.escaped n :: r.1, r.2) := by
  have hslash : (0x5C : CodePoint) ≠ 0x22 := by decide
  simp only [unicodeEscape, List.cons_append, scanPieces, if_neg hslash, if_true]
  exact scanPieces_hexText h t

/-- A half that waits stays alone before anything but the other half. -/
lemma joinFrom_pending {p : Piece} (h : ∀ v, p = .escaped v → isLowSurrogate v = false) (u : ℕ)
    (ps : List Piece) : joinFrom (some u) (p :: ps) = Fin.ofNat _ u :: joinFrom none (p :: ps) := by
  cases p with
  | plain c => rfl
  | escaped v =>
      have hlow := h v rfl
      simp only [joinFrom, hlow, Bool.false_eq_true, if_false]

/-- What is read of one character: it starts with an escaped low surrogate only if the character is
one, and a high surrogate waits for what follows. -/
lemma scanPieces_asciiChar (c : CodePoint) : ∃ (p : Piece) (more : List Piece),
    (∀ v, p = .escaped v → isLowSurrogate v = true → isLowSurrogate c.val = true) ∧
    (∀ ps, joinFrom none (p :: (more ++ ps)) =
      if isHighSurrogate c.val then joinFrom (some c.val) ps else c :: joinFrom none ps) ∧
    ∀ t, scanPieces .normal (asciiChar c ++ t) =
      (scanPieces .normal t).map fun r => (p :: (more ++ r.1), r.2) := by
  by_cases hascii : c.val < 0x7F
  · obtain ⟨p, hjoin, hscan⟩ := scanPieces_escapeChar c
    refine ⟨p, [], ?_, ?_, ?_⟩
    · rintro v rfl hlow
      have hhigh : isHighSurrogate v = false := by
        simp only [isLowSurrogate, isHighSurrogate, Bool.and_eq_true, Bool.and_eq_false_iff,
          decide_eq_true_eq, decide_eq_false_iff_not] at hlow ⊢
        omega
      have hread := hjoin []
      simp only [joinFrom, hhigh, Bool.false_eq_true, if_false, List.cons.injEq] at hread
      rw [← hread.1]
      simp only [isLowSurrogate, Bool.and_eq_true, decide_eq_true_eq] at hlow ⊢
      have hval : (Fin.ofNat 0x110000 v).val = v := Nat.mod_eq_of_lt (by omega)
      omega
    · intro ps
      have hhigh : isHighSurrogate c.val = false := by
        simp only [isHighSurrogate, Bool.and_eq_false_iff, decide_eq_false_iff_not]
        omega
      rw [List.nil_append, hjoin, if_neg (by simp [hhigh])]
    · intro t
      rw [asciiChar, if_pos hascii]
      exact hscan t
  · by_cases hbmp : c.val < 0x10000
    · refine ⟨.escaped c.val, [], ?_, ?_, ?_⟩
      · rintro v hv hlow
        cases hv
        exact hlow
      · intro ps
        have hself : Fin.ofNat 0x110000 c.val = c := Fin.ofNat_val_eq_self c
        simp only [List.nil_append, joinFrom, hself]
      · intro t
        rw [asciiChar, if_neg hascii, if_pos hbmp]
        exact scanPieces_unicodeEscape hbmp t
    · have hlt := c.isLt
      refine ⟨.escaped (0xD800 + (c.val - 0x10000) / 0x400),
        [.escaped (0xDC00 + (c.val - 0x10000) % 0x400)], ?_, ?_, ?_⟩
      · rintro v hv hlow
        cases hv
        simp only [isLowSurrogate, Bool.and_eq_true, decide_eq_true_eq] at hlow
        omega
      · intro ps
        have hfirst : isHighSurrogate (0xD800 + (c.val - 0x10000) / 0x400) = true := by
          simp only [isHighSurrogate, Bool.and_eq_true, decide_eq_true_eq]
          omega
        have hsecond : isLowSurrogate (0xDC00 + (c.val - 0x10000) % 0x400) = true := by
          simp only [isLowSurrogate, Bool.and_eq_true, decide_eq_true_eq]
          omega
        have hhigh : isHighSurrogate c.val = false := by
          simp only [isHighSurrogate, Bool.and_eq_false_iff, decide_eq_false_iff_not]
          omega
        have hvalue : 0x10000 + (0xD800 + (c.val - 0x10000) / 0x400 - 0xD800) * 0x400 +
            (0xDC00 + (c.val - 0x10000) % 0x400 - 0xDC00) = c.val := by omega
        have hself : Fin.ofNat 0x110000 c.val = c := Fin.ofNat_val_eq_self c
        simp only [List.singleton_append, joinFrom, hfirst, hsecond, hhigh, if_true,
          Bool.false_eq_true, if_false, hvalue, hself]
      · intro t
        rw [asciiChar, if_neg hascii, if_neg hbmp, List.append_assoc,
          scanPieces_unicodeEscape (by omega), scanPieces_unicodeEscape (by omega)]
        cases scanPieces .normal t <;> rfl

/-- What is read of a literal whose string has no pair is the string. -/
lemma scanPieces_spellAscii (hs : PairFree s) (rest : Text) :
    ∃ ps, scanPieces .normal (spellAscii s ++ 0x22 :: rest) = some (ps, rest) ∧
      joinFrom none ps = s ∧
      ∀ p ∈ ps.head?, ∀ v, p = .escaped v → isLowSurrogate v = true →
        ∃ c ∈ s.head?, isLowSurrogate c.val = true := by
  induction s with
  | nil => exact ⟨[], by simp [spellAscii, scanPieces], rfl, by simp⟩
  | cons c s ih =>
      obtain ⟨ps, hscan, hjoin, hfirst⟩ := ih hs.tail
      obtain ⟨p, more, hlow, hread, hstep⟩ := scanPieces_asciiChar c
      have htext : spellAscii (c :: s) ++ 0x22 :: rest =
          asciiChar c ++ (spellAscii s ++ 0x22 :: rest) := by
        simp [spellAscii, List.append_assoc]
      refine ⟨p :: (more ++ ps), by rw [htext, hstep, hscan]; rfl, ?_, ?_⟩
      · rw [hread]
        split_ifs with hhigh
        · cases ps with
          | nil =>
              have hnil : s = [] := hjoin.symm
              subst hnil
              simp [joinFrom]
          | cons q qs =>
              rw [joinFrom_pending ?_ c.val qs, hjoin, Fin.ofNat_val_eq_self]
              intro v hv
              rw [Bool.eq_false_iff]
              intro hv'
              obtain ⟨d, hd, hlow'⟩ := hfirst q rfl v hv hv'
              cases s with
              | nil => cases hd
              | cons e s =>
                  obtain rfl : e = d := by simpa using hd
                  exact (List.isChain_cons_cons.mp hs).1 ⟨hhigh, hlow'⟩
        · rw [hjoin]
      · intro p' hp' v hv hv'
        obtain rfl : p = p' := by simpa using hp'
        exact ⟨c, rfl, hlow v hv hv'⟩

lemma Layout.plain_spells (floatText : Binary64 → Text) (hs : PairFree s) :
    (Layout.plain floatText).Spells s := by
  intro rest
  obtain ⟨ps, hscan, hjoin, -⟩ := scanPieces_spellAscii hs rest
  have htext : (Layout.plain floatText).quoted s ++ rest =
      0x22 :: (spellAscii s ++ 0x22 :: rest) := by
    simp [Layout.quoted, Layout.plain]
  rw [htext]
  refine scan_cons (by decide) ?_ (by simp)
  have hquote : punctuation 0x22 = none := by decide
  simp only [scanToken, hquote, if_true, hscan, hjoin]

lemma Layout.plain_spaced (floatText : Binary64 → Text) : (Layout.plain floatText).Spaced := by
  have hnil : ([] : Text).all isJsonSpace = true := rfl
  have hspace : ([0x20] : Text).all isJsonSpace = true := by decide
  exact ⟨fun _ => hnil, fun _ => hspace, fun _ => hnil, hspace⟩

/-- A string in ASCII has no surrogate at all. -/
lemma pairFree_of_ascii (h : ∀ c ∈ s, c.val < 0x80) : PairFree s := by
  induction s with
  | nil => exact .nil
  | cons c s ih =>
      obtain ⟨hc, hs⟩ := List.forall_mem_cons.mp h
      refine List.isChain_cons.mpr ⟨?_, ih hs⟩
      rintro d - ⟨hhigh, -⟩
      simp only [isHighSurrogate, Bool.and_eq_true, decide_eq_true_eq] at hhigh
      omega

end

/-! ## Occurrences -/

lemma spelling_asciiChar : Spelling asciiChar := by
  intro c
  have hescape : ∀ n, unicodeEscape n ⊆ escapes := by
    intro n
    refine List.cons_subset.mpr ⟨by decide, List.cons_subset.mpr ⟨by decide, ?_⟩⟩
    exact hexText_subset 4 n
  unfold asciiChar
  split_ifs with hascii hbmp
  · exact escapeChar_cases c
  · exact .inr ⟨by simp [unicodeEscape], rfl, hescape _⟩
  · exact .inr ⟨by simp [unicodeEscape], rfl, List.append_subset.mpr ⟨hescape _, hescape _⟩⟩

/-! ## Values whose strings are of one kind -/

/-- A shallow value that is always written, and whose strings are of one kind. -/
structure Simple (P : Text → Prop) (n : ℕ) (v : Value) : Prop extends Shallow n v where
  shortInts : v.shortInts = true
  strings : ∀ s ∈ v.strings, P s

section
variable {P : Text → Prop} {n : ℕ} {v : Value} {items : List (Text × Value)} {t : Text}

lemma simple_null (P : Text → Prop) (n : ℕ) : Simple P n .null :=
  ⟨shallow_null n, rfl, fun _ h => absurd h List.not_mem_nil⟩

lemma simple_int {i : ℤ} (h : shortInt i = true) : Simple P n (.int i) :=
  ⟨shallow_int n i, h, fun _ h => absurd h List.not_mem_nil⟩

lemma simple_str (h : P t) : Simple P n (.str t) := by
  refine ⟨shallow_str n t, rfl, fun s hs => ?_⟩
  rw [List.mem_singleton.mp hs]
  exact h

lemma simple_obj (hnodup : (dictKeys items).Nodup) (hkeys : ∀ k ∈ dictKeys items, P k)
    (h : ∀ p ∈ items, Simple P n p.2) : Simple P (n + 1) (.obj items) := by
  refine ⟨shallow_obj hnodup fun p hp => (h p hp).toShallow, ?_, ?_⟩
  · exact shortIntsPairs_iff.mpr fun p hp => (h p hp).shortInts
  · intro s hs
    obtain ⟨p, hp, hs⟩ := mem_stringsPairs.mp hs
    rcases hs with rfl | hs
    · exact hkeys _ (List.mem_map.mpr ⟨p, hp, rfl⟩)
    · exact (h p hp).strings s hs

lemma Simple.sortKeys (h : Simple P n v) : Simple P n v.sortKeys := by
  refine ⟨⟨floatFree_sortKeys v h.floatFree, wellKeyed_sortKeys v h.keyed, ?_⟩,
    shortInts_sortKeys v h.shortInts, ?_⟩
  · rw [depth_sortKeys]
    exact h.depth
  · exact fun s hs => h.strings s ((mem_strings_sortKeys v).mp hs)

/-- A layout that spells the strings lays the value out so that it reads back. -/
lemma Simple.loads {o : Options} {L : Layout} (h : Simple P n v) (hL : L.Spaced)
    (hspells : ∀ s, P s → L.Spells s) (hroom : n ≤ o.nesting) :
    Json.loads o (v.laid L 0) = .ok v := by
  have hfloats : ∀ x ∈ v.floats, L.Renders x := by
    rw [floats_of_floatFree h.floatFree]
    exact fun x hx => absurd hx List.not_mem_nil
  rw [loads_laid o hL (fun s hs => hspells s (h.strings s hs)) hfloats h.shortInts h.keyed,
    if_pos (h.depth.trans hroom)]

end

mutual

/-- Without floats the two writers refuse the same. -/
lemma refusal_eq_lenientRefusal : ∀ (v : Value) {room : ℕ}, v.floatFree = true →
    v.refusal room = v.lenientRefusal room
  | .null, _, _ | .bool _, _, _ | .int _, _, _ | .str _, _, _ => rfl
  | .float _, _, h => by cases h
  | .arr items, room, h => by
      simp only [Value.refusal, Value.lenientRefusal]
      rw [refusalItems_eq_lenientRefusalItems items h]
  | .obj items, room, h => by
      simp only [Value.refusal, Value.lenientRefusal]
      rw [refusalPairs_eq_lenientRefusalPairs items h]

lemma refusalItems_eq_lenientRefusalItems : ∀ (items : List Value) {room : ℕ},
    floatFreeItems items = true → refusalItems room items = lenientRefusalItems room items
  | [], _, _ => rfl
  | v :: items, room, h => by
      simp only [floatFreeItems, Bool.and_eq_true] at h
      simp only [refusalItems, lenientRefusalItems]
      rw [refusal_eq_lenientRefusal v h.1, refusalItems_eq_lenientRefusalItems items h.2]

lemma refusalPairs_eq_lenientRefusalPairs : ∀ (items : List (Text × Value)) {room : ℕ},
    floatFreePairs items = true → refusalPairs room items = lenientRefusalPairs room items
  | [], _, _ => rfl
  | (k, v) :: items, room, h => by
      simp only [floatFreePairs, Bool.and_eq_true] at h
      simp only [refusalPairs, lenientRefusalPairs]
      rw [refusal_eq_lenientRefusal v h.1, refusalPairs_eq_lenientRefusalPairs items h.2]

end

mutual

/-- A value is written in UTF-8 when its strings are. -/
lemma encodable_of_strings : ∀ v : Value, (∀ s ∈ v.strings, Py.Encodable s) → v.encodable = true
  | .null, _ | .bool _, _ | .int _, _ | .float _, _ => rfl
  | .str s, h => decide_eq_true (h s List.mem_cons_self)
  | .arr items, h => encodableItems_of_strings items h
  | .obj items, h => encodablePairs_of_strings items h

lemma encodableItems_of_strings : ∀ items : List Value,
    (∀ s ∈ stringsItems items, Py.Encodable s) → encodableItems items = true
  | [], _ => rfl
  | v :: items, h => by
      simp only [stringsItems, List.forall_mem_append] at h
      simp only [encodableItems, Bool.and_eq_true]
      exact ⟨encodable_of_strings v h.1, encodableItems_of_strings items h.2⟩

lemma encodablePairs_of_strings : ∀ items : List (Text × Value),
    (∀ s ∈ stringsPairs items, Py.Encodable s) → encodablePairs items = true
  | [], _ => rfl
  | (k, v) :: items, h => by
      simp only [stringsPairs, List.forall_mem_cons, List.forall_mem_append] at h
      simp only [encodablePairs, Bool.and_eq_true, decide_eq_true_eq]
      exact ⟨⟨h.1.1, encodable_of_strings v h.1.2⟩, encodablePairs_of_strings items h.2⟩

end

/-- What is simple is written. -/
lemma Simple.dumps {P : Text → Prop} {n nesting : ℕ} {v : Value} {floatText : Binary64 → Text}
    (h : Simple P n v) (hroom : n ≤ nesting) :
    Json.dumps nesting floatText v = .ok (v.sortKeys.compact floatText) := by
  have hsorted := h.sortKeys
  have hrefusal : v.sortKeys.refusal nesting = none := by
    rw [refusal_eq_lenientRefusal _ hsorted.floatFree]
    exact lenientRefusal_eq_none _ (hsorted.depth.trans hroom) hsorted.shortInts
  rw [Json.dumps, hrefusal]

end AgentOrch.Json
