import AgentOrch.Framework.JsonKeys
import AgentOrch.Framework.JsonText
import Mathlib.Data.List.TakeWhile

/-!
# The tokens of a text

`Scans t ts` says that the scanner cuts the whole of `t` into the tokens `ts`.  A line end outside
the lines of a text changes nothing about them (`scans_lineEnd_iff`), and a text that is read leaves
no choice: its tokens are those of the value (`scans_of_loads`).
-/

namespace AgentOrch.Json

open Py

/-! ## Scanning a whole text -/

/-- The scanner reaches the end of the text without a bad token. -/
inductive Scans : Text → List Token → Prop
  | done {w : Text} (hw : w.all isJsonSpace = true) : Scans w []
  | token {w t rest : Text} {c : CodePoint} {k : Token} {ts : List Token}
      (hw : w.all isJsonSpace = true) (hc : isJsonSpace c = false)
      (hscan : scanToken c t = (k, rest)) (hbad : ∀ e, k ≠ .bad e) (hrest : Scans rest ts) :
      Scans (w ++ c :: t) (k :: ts)

lemma Scans.scan {t : Text} {ts : List Token} (h : Scans t ts) : scan t = ts := by
  induction h with
  | @done w hw =>
      have hpad := scan_pad hw []
      rw [List.append_nil] at hpad
      rw [hpad]
      rfl
  | token hw hc hscan hbad _ ih => rw [scan_pad hw, scan_cons hc hscan hbad, ih]

/-- White space in front is skipped. -/
lemma Scans.pad {w t : Text} {ts : List Token} (hw : w.all isJsonSpace = true) (h : Scans t ts) :
    Scans (w ++ t) ts := by
  cases h with
  | done ht => exact .done (by rw [List.all_append, hw, ht, Bool.and_self])
  | token ht hc hscan hbad hrest =>
      rw [← List.append_assoc]
      exact .token (by rw [List.all_append, hw, ht, Bool.and_self]) hc hscan hbad hrest

/-- A text without tokens is white space. -/
lemma scans_nil_iff {t : Text} : Scans t [] ↔ t.all isJsonSpace = true := by
  constructor
  · intro h
    cases h with
    | done hw => exact hw
  · exact .done

lemma Scans.unique {t : Text} {ts us : List Token} (h : Scans t ts) (h' : Scans t us) : ts = us :=
  h.scan.symm.trans h'.scan

/-- The text without its leading white space. -/
private lemma exists_pad (t : Text) : ∃ w u, t = w ++ u ∧ w.all isJsonSpace = true ∧
    skipSpace t = u ∧ ∀ c ∈ u.head?, isJsonSpace c = false := by
  refine ⟨t.takeWhile isJsonSpace, skipSpace t, (List.takeWhile_append_dropWhile).symm, ?_, rfl, ?_⟩
  · rw [List.all_eq_true]
    exact fun c hc => List.mem_takeWhile_imp hc
  · intro c hc
    have hnot := List.head?_dropWhile_not isJsonSpace t
    rw [skipSpace] at hc
    rw [Option.mem_def] at hc
    rw [hc] at hnot
    exact hnot

/-- A text that gives no bad token is scanned whole. -/
lemma scans_of_good (n : ℕ) : ∀ {t : Text}, t.length ≤ n → (∀ e, .bad e ∉ scan t) →
    Scans t (scan t) := by
  induction n with
  | zero =>
      intro t ht _
      obtain rfl : t = [] := List.length_eq_zero_iff.mp (by omega)
      exact .done rfl
  | succ n ih =>
      intro t ht hgood
      obtain ⟨w, u, rfl, hw, -, hhead⟩ := exists_pad t
      rw [scan_pad hw] at hgood ⊢
      cases u with
      | nil => exact Scans.pad hw (.done rfl)
      | cons c u =>
          have hc := hhead c rfl
          obtain ⟨k, rest, hscan⟩ : ∃ k rest, scanToken c u = (k, rest) := ⟨_, _, rfl⟩
          have hbad : ∀ e, k ≠ .bad e := by
            rintro e rfl
            apply hgood e
            have hskip : skipSpace (c :: u) = c :: u := by simp [skipSpace, hc]
            rw [scan, List.length_cons, scanFrom, hskip]
            simp only [hscan]
            exact List.mem_singleton_self _
          have hlength := scanToken_length hscan hbad
          rw [scan_cons hc hscan hbad] at hgood ⊢
          refine .token hw hc hscan hbad (ih ?_ fun e he => hgood e (.tail _ he))
          simp only [List.length_append, List.length_cons] at ht
          omega

/-! ## A line end between two lines -/

section LineEnd

variable {nl : CodePoint} (hnl : nl = 0x0D ∨ nl = 0x0A) (b : Text)

lemma takeWhile_lineEnd {p : CodePoint → Bool} (hp : p nl = false) (t : Text) :
    (t ++ nl :: b).takeWhile p = t.takeWhile p := by
  induction t with
  | nil => simp [hp]
  | cons c t ih => simp only [List.cons_append, List.takeWhile_cons, ih]

lemma dropWhile_lineEnd {p : CodePoint → Bool} (hp : p nl = false) (t : Text) :
    (t ++ nl :: b).dropWhile p = t.dropWhile p ++ nl :: b := by
  induction t with
  | nil => simp [hp]
  | cons c t ih =>
      simp only [List.cons_append, List.dropWhile_cons, ih]
      split <;> rfl

lemma isPrefixOf_lineEnd {q : Text} (hq : nl ∉ q) : ∀ t : Text,
    q.isPrefixOf (t ++ nl :: b) = q.isPrefixOf t := by
  induction q with
  | nil => intro t; simp
  | cons d q ih =>
      rw [List.mem_cons, not_or] at hq
      intro t
      cases t with
      | nil =>
          have hne : (d == nl) = false := beq_eq_false_iff_ne.mpr fun h => hq.1 h.symm
          show (d == nl && q.isPrefixOf b) = false
          rw [hne, Bool.false_and]
      | cons c t =>
          show (d == c && q.isPrefixOf (t ++ nl :: b)) = (d == c && q.isPrefixOf t)
          rw [ih hq.2 t]

lemma stripPrefix_lineEnd {q : Text} (hq : nl ∉ q) (t : Text) :
    stripPrefix q (t ++ nl :: b) = (stripPrefix q t).map (· ++ nl :: b) := by
  simp only [stripPrefix, isPrefixOf_lineEnd b hq]
  split
  · next h =>
    have hle := (List.isPrefixOf_iff_prefix.mp h).length_le
    rw [Option.map_some, List.drop_append_of_le_length hle]
  · rfl

include hnl

private lemma digit_lineEnd : isAsciiDigit nl = false := by
  rcases hnl with rfl | rfl <;> decide

/-- A string literal closes before the line ends, or not at all. -/
lemma scanPieces_lineEndAfter (t : Text) : ∀ st, scanPieces st (t ++ nl :: b) =
    (scanPieces st t).map fun r => (r.1, r.2 ++ nl :: b) := by
  induction t with
  | nil =>
      intro st
      rw [List.nil_append, scanPieces_lineEnd hnl]
      cases st <;> rfl
  | cons c t ih =>
      intro st
      rw [List.cons_append]
      cases st with
      | normal =>
          simp only [scanPieces, ih]
          split_ifs <;> simp [Function.comp_def]
      | escape =>
          simp only [scanPieces, ih]
          split_ifs
          · rfl
          · cases simpleEscape c <;> simp [Function.comp_def]
      | hex left acc =>
          simp only [scanPieces, ih]
          cases hexDigit c with
          | none => rfl
          | some d => simp only; split_ifs <;> simp [Function.comp_def]

lemma scanFraction_lineEnd (t : Text) : scanFraction (t ++ nl :: b) =
    ((scanFraction t).1, (scanFraction t).2 ++ nl :: b) := by
  have hdot : nl ∉ (".": Text) := by rcases hnl with rfl | rfl <;> decide
  have hdigit := digit_lineEnd hnl
  simp only [scanFraction, stripPrefix_lineEnd b hdot]
  cases stripPrefix "." t with
  | none => rfl
  | some u =>
      simp only [Option.map_some, takeWhile_lineEnd b hdigit, dropWhile_lineEnd b hdigit]
      split <;> rfl

lemma scanSigned_lineEnd (t : Text) : scanSigned (t ++ nl :: b) =
    (scanSigned t).map fun r => (r.1, r.2.1, r.2.2 ++ nl :: b) := by
  have hminus : nl ∉ ("-" : Text) := by rcases hnl with rfl | rfl <;> decide
  have hplus : nl ∉ ("+" : Text) := by rcases hnl with rfl | rfl <;> decide
  have hdigit := digit_lineEnd hnl
  have digits : ∀ (negative : Bool) (u : Text),
      (if ((u ++ nl :: b).takeWhile isAsciiDigit).isEmpty then none
        else some (negative, (u ++ nl :: b).takeWhile isAsciiDigit,
          (u ++ nl :: b).dropWhile isAsciiDigit)) =
      (if (u.takeWhile isAsciiDigit).isEmpty then none
        else some (negative, u.takeWhile isAsciiDigit, u.dropWhile isAsciiDigit)).map
          fun r => (r.1, r.2.1, r.2.2 ++ nl :: b) := by
    intro negative u
    simp only [takeWhile_lineEnd b hdigit, dropWhile_lineEnd b hdigit]
    split <;> rfl
  simp only [scanSigned, stripPrefix_lineEnd b hminus, stripPrefix_lineEnd b hplus]
  cases stripPrefix "-" t with
  | some u => exact digits true u
  | none =>
      cases stripPrefix "+" t with
      | none => exact digits false t
      | some u => exact digits false u

lemma scanExponent_lineEnd (t : Text) : scanExponent (t ++ nl :: b) =
    ((scanExponent t).1, (scanExponent t).2 ++ nl :: b) := by
  have he : nl ∉ ("e" : Text) := by rcases hnl with rfl | rfl <;> decide
  have hE : nl ∉ ("E" : Text) := by rcases hnl with rfl | rfl <;> decide
  simp only [scanExponent, stripPrefix_lineEnd b he, stripPrefix_lineEnd b hE]
  cases stripPrefix "e" t with
  | some u =>
      simp only [Option.map_some, Option.orElse_some, scanSigned_lineEnd hnl]
      cases scanSigned u <;> rfl
  | none =>
      cases stripPrefix "E" t with
      | none => rfl
      | some u =>
          simp only [Option.map_some, Option.map_none, Option.orElse_none, scanSigned_lineEnd hnl]
          cases scanSigned u <;> rfl

lemma scanNumber_lineEnd (negative : Bool) (t : Text) :
    scanNumber negative (t ++ nl :: b) =
      ((scanNumber negative t).1, (scanNumber negative t).2 ++ nl :: b) := by
  have hzero : nl ∉ ("0" : Text) := by rcases hnl with rfl | rfl <;> decide
  have hdigit := digit_lineEnd hnl
  simp only [scanNumber, stripPrefix_lineEnd b hzero]
  cases stripPrefix "0" t with
  | none =>
      simp only [Option.map_none, takeWhile_lineEnd b hdigit, dropWhile_lineEnd b hdigit,
        scanFraction_lineEnd hnl, scanExponent_lineEnd hnl]
      split_ifs <;> rfl
  | some u =>
      simp only [Option.map_some, scanFraction_lineEnd hnl, scanExponent_lineEnd hnl]
      split_ifs <;> rfl

lemma scanLiteral_lineEnd (t : Text) : scanLiteral (t ++ nl :: b) =
    (scanLiteral t).map fun r => (r.1, r.2 ++ nl :: b) := by
  have hfree : ∀ q ∈ literals, nl ∉ q.1 := by rcases hnl with rfl | rfl <;> decide
  simp only [scanLiteral]
  generalize literals = table at hfree
  induction table with
  | nil => rfl
  | cons q table ih =>
      have hq := hfree q List.mem_cons_self
      have ih := ih fun r hr => hfree r (List.mem_cons_of_mem _ hr)
      simp only [List.findSome?_cons, stripPrefix_lineEnd b hq]
      cases stripPrefix q.1 t with
      | none => simpa using ih
      | some u => rfl

/-- A token is cut from its own line. -/
lemma scanToken_lineEnd (c : CodePoint) (t : Text) : scanToken c (t ++ nl :: b) =
    ((scanToken c t).1, (scanToken c t).2 ++ nl :: b) := by
  simp only [scanToken]
  cases punctuation c with
  | some token => rfl
  | none =>
      simp only
      split_ifs with hquote hminus
      · rw [scanPieces_lineEndAfter hnl]
        cases scanPieces .normal t <;> rfl
      · rw [← List.cons_append, scanLiteral_lineEnd hnl]
        cases scanLiteral (c :: t) with
        | none => exact scanNumber_lineEnd hnl b true t
        | some r => rfl
      · rw [← List.cons_append, scanLiteral_lineEnd hnl]
        cases scanLiteral (c :: t) with
        | none => exact scanNumber_lineEnd hnl b false (c :: t)
        | some r => rfl

private lemma space_lineEnd : isJsonSpace nl = true := by
  rcases hnl with rfl | rfl <;> decide

variable {b}

/-- Two lines give the tokens of the first and then those of the second. -/
theorem scans_lineEnd_iff {a : Text} {vs : List Token} : Scans (a ++ nl :: b) vs ↔
    ∃ ts us, vs = ts ++ us ∧ Scans a ts ∧ Scans b us := by
  constructor
  · intro h
    generalize ht : a ++ nl :: b = t at h
    induction h generalizing a with
    | done hw =>
        rw [← ht, List.all_append, List.all_cons, Bool.and_eq_true, Bool.and_eq_true] at hw
        exact ⟨[], [], rfl, .done hw.1, .done hw.2.2⟩
    | @token w t rest c k ts hw hc hscan hbad hrest ih =>
        rcases List.append_eq_append_iff.mp ht with ⟨w', hw', hb⟩ | ⟨a', ha, ht'⟩
        · -- the line ends in the white space
          cases w' with
          | nil =>
              rw [List.nil_append, List.cons.injEq] at hb
              rw [← hb.1, space_lineEnd hnl] at hc
              cases hc
          | cons d w' =>
              rw [List.cons_append, List.cons.injEq] at hb
              obtain ⟨rfl, rfl⟩ := hb
              rw [hw', List.all_append, List.all_cons, Bool.and_eq_true, Bool.and_eq_true] at hw
              exact ⟨[], _, rfl, .done hw.1, .token hw.2.2 hc hscan hbad hrest⟩
        · cases a' with
          | nil =>
              rw [List.nil_append, List.cons.injEq] at ht'
              rw [ht'.1, space_lineEnd hnl] at hc
              cases hc
          | cons d a' =>
              rw [List.cons_append, List.cons.injEq] at ht'
              obtain ⟨rfl, rfl⟩ := ht'
              rw [scanToken_lineEnd hnl, Prod.mk.injEq] at hscan
              obtain ⟨ts, us, rfl, ha', hb⟩ := ih hscan.2
              subst ha
              exact ⟨k :: ts, us, rfl, .token hw hc (by rw [← hscan.1]) hbad ha', hb⟩
  · rintro ⟨ts, us, rfl, ha, hb⟩
    induction ha with
    | @done w hw =>
        have hspace : (w ++ [nl]).all isJsonSpace = true := by
          rw [List.all_append, hw, List.all_cons, space_lineEnd hnl]
          rfl
        rw [List.nil_append, List.append_cons]
        exact Scans.pad hspace hb
    | @token w t rest c k ts hw hc hscan hbad hrest ih =>
        rw [List.append_assoc, List.cons_append]
        refine .token hw hc ?_ hbad ih
        rw [scanToken_lineEnd hnl, hscan]

end LineEnd

/-! ## The tokens of what was read -/

/-- The tokens of the items in front of one more. -/
def leadItems (items : List Value) : List Token :=
  items.flatMap fun v => v.tokens ++ [.comma]

def leadPairs (items : List (Text × Value)) : List Token :=
  items.flatMap fun p => .str p.1 :: .colon :: p.2.tokens ++ [.comma]

/-- The tokens read since a container was opened. -/
def Frame.tokens : Frame → List Token
  | .array items => .openBracket :: leadItems items.reverse
  | .object items k => .openBrace :: leadPairs items.reverse ++ [.str k, .colon]

def Mode.tokens : Mode → List Token
  | .value => []
  | .valueOrClose => []
  | .key items => .openBrace :: leadPairs items.reverse
  | .keyOrClose => [.openBrace]
  | .colon items k => .openBrace :: leadPairs items.reverse ++ [.str k]
  | .after v => v.tokens

/-- Everything the machine has read. -/
def readTokens (mode : Mode) (stack : List Frame) : List Token :=
  stack.reverse.flatMap Frame.tokens ++ mode.tokens

lemma leadItems_cons (v w : Value) (items : List Value) :
    leadItems (v :: items) ++ w.tokens = v.tokens ++ tokensItems (items ++ [w]) := by
  induction items generalizing v with
  | nil => simp [leadItems, tokensItems]
  | cons x items ih =>
      have hlead : leadItems (v :: x :: items) = v.tokens ++ .comma :: leadItems (x :: items) := by
        simp [leadItems]
      rw [hlead, List.append_assoc, List.cons_append, ih]
      simp [tokensItems]

lemma tokens_arr_concat (items : List Value) (v : Value) : (Value.arr (items ++ [v])).tokens =
    .openBracket :: leadItems items ++ v.tokens ++ [.closeBracket] := by
  cases items with
  | nil => simp [Value.tokens, leadItems, tokensItems]
  | cons w items =>
      have hlead := leadItems_cons w v items
      simp only [List.cons_append, Value.tokens] at hlead ⊢
      rw [hlead]

lemma leadPairs_cons (p q : Text × Value) (items : List (Text × Value)) :
    leadPairs (p :: items) ++ .str q.1 :: .colon :: q.2.tokens =
      .str p.1 :: .colon :: p.2.tokens ++ tokensPairs (items ++ [q]) := by
  induction items generalizing p with
  | nil => simp [leadPairs, tokensPairs]
  | cons x items ih =>
      have hlead : leadPairs (p :: x :: items) =
          .str p.1 :: .colon :: p.2.tokens ++ .comma :: leadPairs (x :: items) := by
        simp [leadPairs]
      have hrest := ih x
      simp only [List.cons_append] at hrest
      simp [hlead, hrest, tokensPairs]

lemma tokens_obj_concat (items : List (Text × Value)) (q : Text × Value) :
    (Value.obj (items ++ [q])).tokens =
      .openBrace :: leadPairs items ++ .str q.1 :: .colon :: q.2.tokens ++ [.closeBrace] := by
  cases items with
  | nil => simp [Value.tokens, leadPairs, tokensPairs]
  | cons p items =>
      have hlead := leadPairs_cons p q items
      simp only [List.cons_append, Value.tokens] at hlead ⊢
      rw [hlead]
      simp

/-- No key occurs a second time when the hook sees none. -/
lemma nodup_of_firstRepeated {pairs : List (Text × Value)} : ∀ {seen : List Text},
    closeObject.firstRepeated seen pairs = none →
      (∀ k ∈ dictKeys pairs, k ∉ seen) ∧ (dictKeys pairs).Nodup := by
  induction pairs with
  | nil => intro seen _; exact ⟨by simp [dictKeys], List.nodup_nil⟩
  | cons p pairs ih =>
      obtain ⟨k, v⟩ := p
      intro seen h
      rw [closeObject.firstRepeated] at h
      split_ifs at h with hseen
      obtain ⟨hnew, hnodup⟩ := ih h
      refine ⟨?_, List.nodup_cons.mpr ⟨fun hk => hnew k hk List.mem_cons_self, hnodup⟩⟩
      intro k' hk'
      rcases List.mem_cons.mp hk' with rfl | hk'
      · exact hseen
      · exact fun hmem => hnew k' hk' (List.mem_cons_of_mem _ hmem)

lemma closeObject_eq_ok {o : Options} (ho : o.uniqueKeys = true) {pairs : List (Text × Value)}
    {v : Value} (h : closeObject o pairs = .ok v) : v = .obj pairs := by
  have hnone : closeObject.firstRepeated [] pairs = none := by
    rw [closeObject, if_pos ho] at h
    cases hrepeated : closeObject.firstRepeated [] pairs with
    | none => rfl
    | some k =>
        rw [hrepeated] at h
        cases h
  rw [closeObject_of_nodup o (nodup_of_firstRepeated hnone).2] at h
  exact (Except.ok.inj h).symm

/-- The machine reads the tokens of what it returns. -/
lemma run_reads {o : Options} (ho : o.uniqueKeys = true) {mode : Mode} {stack : List Frame}
    {ts : List Token} {v : Value} (hatoms : ∀ w, .atom w ∈ ts → w.tokens = [.atom w])
    (hmode : mode = .valueOrClose → ∃ below, stack = .array [] :: below)
    (h : run o mode stack ts = .ok v) : readTokens mode stack ++ ts = v.tokens := by
  fun_induction run o mode stack ts
  -- every token but the last leaves the rest to be read
  case case1 v' =>
      obtain rfl := Except.ok.inj h
      simp [readTokens, Mode.tokens]
  case case3 ih | case4 ih =>
      rw [← ih (fun w hw => hatoms w (.tail _ hw)) (by simp) h]
      simp [readTokens, Mode.tokens, Value.tokens]
  case case5 ih | case6 ih =>
      rw [← ih (fun w hw => hatoms w (.tail _ hw)) (by simp) h]
      simp [readTokens, Mode.tokens, hatoms _ (.head _)]
  case case8 hroom ih | case10 hroom ih =>
      rw [if_neg hroom] at h
      rw [← ih (fun w hw => hatoms w (.tail _ hw)) (fun _ => ⟨_, rfl⟩) h]
      simp [readTokens, Mode.tokens, Frame.tokens, leadItems]
  case case12 hroom ih | case14 hroom ih =>
      rw [if_neg hroom] at h
      rw [← ih (fun w hw => hatoms w (.tail _ hw)) (by simp) h]
      simp [readTokens, Mode.tokens]
  case case15 ih =>
      obtain ⟨below, hstack⟩ := hmode rfl
      simp only [List.cons.injEq, Frame.array.injEq] at hstack
      obtain ⟨rfl, rfl⟩ := hstack
      rw [← ih (fun w hw => hatoms w (.tail _ hw)) (by simp) h]
      simp [readTokens, Mode.tokens, Frame.tokens, leadItems, Value.tokens]
  case case18 ih =>
      rw [← ih (fun w hw => hatoms w (.tail _ hw)) (by simp) h]
      simp [readTokens, Mode.tokens, Value.tokens]
  case case19 ih =>
      rw [← ih (fun w hw => hatoms w (.tail _ hw)) (by simp) h]
      simp [readTokens, Mode.tokens, leadPairs]
  case case20 ih | case21 ih =>
      rw [← ih (fun w hw => hatoms w (.tail _ hw)) (by simp) h]
      simp [readTokens, Mode.tokens, Frame.tokens]
  case case22 ih | case24 ih =>
      rw [← ih (fun w hw => hatoms w (.tail _ hw)) (by simp) h]
      simp [readTokens, Mode.tokens, Frame.tokens, leadItems, leadPairs]
  case case23 ih =>
      rw [← ih (fun w hw => hatoms w (.tail _ hw)) (by simp) h]
      simp [readTokens, Mode.tokens, Frame.tokens, tokens_arr_concat]
  case case25 hclose ih =>
      obtain rfl := closeObject_eq_ok ho hclose
      rw [← ih (fun w hw => hatoms w (.tail _ hw)) (by simp) h]
      simp [readTokens, Mode.tokens, Frame.tokens, tokens_obj_concat]
  case case7 hroom | case9 hroom | case11 hroom | case13 hroom =>
      rw [if_pos hroom] at h
      cases h
  all_goals cases h

/-- The machine returns only when no token is bad. -/
lemma run_good {o : Options} {mode : Mode} {stack : List Frame} {ts : List Token} {v : Value}
    (h : run o mode stack ts = .ok v) (e : Error) : .bad e ∉ ts := by
  fun_induction run o mode stack ts
  -- there is no token, or it is not bad
  all_goals grind

/-- A text that is read is scanned into the tokens of its value. -/
theorem scans_of_loads {o : Options} (ho : o.uniqueKeys = true) {t : Text} {v : Value}
    (h : loads o t = .ok v) : Scans t v.tokens := by
  have hatoms : ∀ w, .atom w ∈ scan t → w.tokens = [.atom w] := by
    intro w hw
    have hscalar := atoms_scanFrom _ t w hw
    cases w with
    | str s => cases hscalar
    | arr items => cases hscalar
    | obj items => cases hscalar
    | _ => rfl
  have htokens : scan t = v.tokens := run_reads ho hatoms (by simp) h
  rw [← htokens]
  exact scans_of_good t.length le_rfl (run_good h)

/-- Reading the tokens of a value depends on nothing but the room for it. -/
theorem loads_of_scans (o : Options) {t : Text} {v : Value} (hscan : Scans t v.tokens)
    (hkeyed : v.wellKeyed = true) :
    loads o t = if v.depth ≤ o.nesting then .ok v else .error .recursion := by
  have hrun := @run_tokens o v .value [] [] (.inl rfl) hkeyed (Nat.zero_le _)
  rw [List.append_nil] at hrun
  rw [loads, hscan.scan, hrun, List.length_nil, Nat.zero_add]
  rfl

mutual

/-- Every container of a value takes a token. -/
lemma depth_le_tokens : ∀ v : Value, v.depth ≤ v.tokens.length
  | .null => Nat.zero_le _
  | .bool _ => Nat.zero_le _
  | .int _ => Nat.zero_le _
  | .float _ => Nat.zero_le _
  | .str _ => Nat.zero_le _
  | .arr [] => by simp [Value.depth, depthItems, Value.tokens]
  | .arr (v :: items) => by
      have hv := depth_le_tokens v
      have hitems := depthItems_le_tokens items
      simp only [Value.depth, depthItems, Value.tokens, List.length_append, List.length_cons]
      omega
  | .obj [] => by simp [Value.depth, depthPairs, Value.tokens]
  | .obj ((k, v) :: items) => by
      have hv := depth_le_tokens v
      have hitems := depthPairs_le_tokens items
      simp only [Value.depth, depthPairs, Value.tokens, List.length_append, List.length_cons]
      omega

lemma depthItems_le_tokens : ∀ items : List Value,
    depthItems items ≤ (tokensItems items).length
  | [] => le_rfl
  | v :: items => by
      have hv := depth_le_tokens v
      have hitems := depthItems_le_tokens items
      simp only [depthItems, tokensItems, List.length_append, List.length_cons]
      omega

lemma depthPairs_le_tokens : ∀ items : List (Text × Value),
    depthPairs items ≤ (tokensPairs items).length
  | [] => le_rfl
  | (k, v) :: items => by
      have hv := depth_le_tokens v
      have hitems := depthPairs_le_tokens items
      simp only [depthPairs, tokensPairs, List.length_append, List.length_cons]
      omega

end

/-- Every token takes a character. -/
lemma Scans.length_le {t : Text} {ts : List Token} (h : Scans t ts) : ts.length ≤ t.length := by
  induction h with
  | done _ => exact Nat.zero_le _
  | token hw hc hscan hbad hrest ih =>
      have hlength := scanToken_length hscan hbad
      simp only [List.length_append, List.length_cons]
      omega

/-- A reader with room for a container at every character refuses no text for its nesting. -/
theorem loads_length_iff {n : ℕ} {t : Text} {v : Value} : loads ⟨n, true⟩ t = .ok v ↔
    loads ⟨t.length, true⟩ t = .ok v ∧ v.depth ≤ n := by
  have hread {m k : ℕ} (h : loads ⟨m, true⟩ t = .ok v) : loads ⟨k, true⟩ t =
      if v.depth ≤ k then .ok v else .error .recursion :=
    loads_of_scans ⟨k, true⟩ (scans_of_loads rfl h) (loads_wellKeyed h)
  constructor
  · intro h
    have hdepth : v.depth ≤ t.length :=
      (depth_le_tokens v).trans (scans_of_loads rfl h).length_le
    refine ⟨by rw [hread h, if_pos hdepth], ?_⟩
    by_contra hroom
    rw [hread h, if_neg hroom] at h
    cases h
  · rintro ⟨h, hroom⟩
    rw [hread h, if_pos hroom]

/-- What such a reader reads, one with less room reads or has no room for. -/
theorem loads_or_recursion {n : ℕ} {t : Text} {v : Value}
    (h : loads ⟨t.length, true⟩ t = .ok v) :
    loads ⟨n, true⟩ t = .ok v ∨ loads ⟨n, true⟩ t = .error .recursion := by
  rw [loads_of_scans ⟨n, true⟩ (scans_of_loads rfl h) (loads_wellKeyed h)]
  split
  · exact .inl rfl
  · exact .inr rfl

/-- Every key of an object is one of its string tokens. -/
lemma str_mem_tokens {items : List (Text × Value)} {k : Text} (h : k ∈ dictKeys items) :
    .str k ∈ (Value.obj items).tokens := by
  have hpairs : ∀ items : List (Text × Value), k ∈ dictKeys items →
      .str k ∈ tokensPairs items := by
    intro items
    induction items with
    | nil => intro h; cases h
    | cons p items ih =>
        intro h
        rcases List.mem_cons.mp h with rfl | h
        · exact List.mem_cons_of_mem _ List.mem_cons_self
        · simp [tokensPairs, ih h]
  cases items with
  | nil => cases h
  | cons p items =>
      rcases List.mem_cons.mp h with rfl | h
      · exact List.mem_cons_of_mem _ List.mem_cons_self
      · simp [Value.tokens, hpairs items h]

end AgentOrch.Json
