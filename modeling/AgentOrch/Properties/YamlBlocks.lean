import AgentOrch.Construction.Yaml
import AgentOrch.Framework.Lines
import AgentOrch.Framework.Occurrences

/-!
# Blocks of the lifecycle files

What the reader makes of the lines of one value: the value, with its hollow containers settled
(`parseBlock_yamlLines`).

The induction is on the value.  What stands behind a block is the same for every level: lines that
begin further to the left, which the loops of the reader leave alone.
-/

namespace AgentOrch

open Py Json

namespace Yaml

/-! ## Records -/

/-- A container that leaves no lines behind. -/
def isHollow : Value → Bool
  | .arr [] | .obj [] => true
  | _ => false

mutual

/-- What a value comes back as. -/
def settled : Value → Value
  | .arr items => .arr (settledItems items)
  | .obj items => .obj (settledPairs items)
  | v => v

def settledItems : List Value → List Value
  | [] => []
  | item :: rest => (if isHollow item then .null else settled item) :: settledItems rest

def settledPairs : List (Text × Value) → List (Text × Value)
  | [] => []
  | (key, item) :: rest =>
    (key, if isHollow item then .obj [] else settled item) :: settledPairs rest

end

/-- The line boundaries of the text are escaped in its literal. -/
def PlainText (s : Text) : Prop := ∀ c ∈ s, isLineBreak c = true → c.val < 0x20

instance (s : Text) : Decidable (PlainText s) := List.decidableBAll _ s

/-- A key that is read as the key it is. -/
structure PlainKey (key : Text) : Prop where
  oneLine : OneLine key
  colon : 0x3A ∉ key
  start : ∀ c ∈ key.head?, c ≠ 0x20 ∧ c ≠ 0x2D

instance (key : Text) : Decidable (PlainKey key) :=
  decidable_of_iff
    (OneLine key ∧ 0x3A ∉ key ∧ (key.head?.all fun c => c != 0x20 && c != 0x2D) = true) <| by
      rw [Option.all_eq_true]
      constructor
      · exact fun h => ⟨h.1, h.2.1, fun c hc => by simpa using h.2.2 c hc⟩
      · exact fun h => ⟨h.oneLine, h.colon, fun c hc => by simpa using h.start c hc⟩

/-- A text that stands on one line with no white space around it. -/
structure Inline (t : Text) : Prop where
  oneLine : OneLine t
  bounded : Bounded t

section
variable (rt : Runtime)

mutual

/-- The keys and strings of the value are plain, and its floats are read as the floats they are. -/
def Plain : Value → Prop
  | .str s => PlainText s
  | .float x => Inline (rt.floatRepr x) ∧ parseScalar rt (rt.floatRepr x) = .ok (.float x)
  | .arr items => PlainItems items
  | .obj items => PlainPairs items
  | _ => True

def PlainItems : List Value → Prop
  | [] => True
  | item :: rest => Plain item ∧ PlainItems rest

def PlainPairs : List (Text × Value) → Prop
  | [] => True
  | (key, item) :: rest => PlainKey key ∧ Plain item ∧ PlainPairs rest

end

end

/-! ## Scalars -/

lemma isSpace_eq_false_of_val {c : CodePoint} (h : 0x21 ≤ c.val) (h' : c.val ≤ 0x7E) :
    isSpace c = false := by
  simp only [isSpace, Bool.or_eq_false_iff, Bool.and_eq_false_iff, decide_eq_false_iff_not,
    beq_eq_false_iff_ne]
  omega

lemma isLineBreak_eq_false_of_val {c : CodePoint} (h : 0x1F ≤ c.val) (h' : c.val ≤ 0x7E) :
    isLineBreak c = false := by
  simp only [isLineBreak, Bool.or_eq_false_iff, Bool.and_eq_false_iff, decide_eq_false_iff_not,
    beq_eq_false_iff_ne]
  omega

/-- A text of printing ASCII characters. -/
lemma inline_of_ascii {t : Text} (hne : t ≠ []) (h : ∀ c ∈ t, 0x21 ≤ c.val ∧ c.val ≤ 0x7E) :
    Inline t where
  oneLine c hc := isLineBreak_eq_false_of_val (by have := h c hc; omega) (h c hc).2
  bounded :=
    ⟨hne, fun c hc => isSpace_eq_false_of_val (h c (List.mem_of_mem_head? hc)).1
        (h c (List.mem_of_mem_head? hc)).2,
      fun c hc => isSpace_eq_false_of_val (h c (List.mem_of_mem_getLast? hc)).1
        (h c (List.mem_of_mem_getLast? hc)).2⟩

lemma inline_natText (n : ℕ) : Inline (natText n) := by
  refine inline_of_ascii (natText_ne_nil n) fun c hc => ?_
  have hdigit := isAsciiDigit_natText hc
  simp only [isAsciiDigit, Bool.and_eq_true, decide_eq_true_eq] at hdigit
  omega

lemma inline_intText (n : ℤ) : Inline (intText n) := by
  unfold intText
  split_ifs
  · refine inline_of_ascii (List.cons_ne_nil _ _) fun c hc => ?_
    rcases List.mem_cons.mp hc with rfl | hc
    · decide
    · have hdigit := isAsciiDigit_natText hc
      simp only [isAsciiDigit, Bool.and_eq_true, decide_eq_true_eq] at hdigit
      omega
  · exact inline_natText _

lemma oneLine_escapeChar {c : CodePoint} (h : isLineBreak c = true → c.val < 0x20) :
    OneLine (escapeChar c) := by
  have hhex : ∀ n < 0x20, OneLine (hexText 4 n) := by decide
  have hpair : ∀ d : CodePoint, isLineBreak d = false → OneLine [0x5C, d] := by
    intro d hd e he
    rcases List.mem_cons.mp he with rfl | he
    · decide
    · rw [List.mem_singleton.mp he]
      exact hd
  unfold escapeChar
  split_ifs with hquote hb hf hn hr ht hlow
  · rcases hquote with rfl | rfl
    · exact hpair _ (by decide)
    · exact hpair _ (by decide)
  · exact hpair _ (by decide)
  · exact hpair _ (by decide)
  · exact hpair _ (by decide)
  · exact hpair _ (by decide)
  · exact hpair _ (by decide)
  · intro d hd
    rcases List.mem_cons.mp hd with rfl | hd
    · decide
    · rcases List.mem_cons.mp hd with rfl | hd
      · decide
      · exact hhex c.val hlow d hd
  · intro d hd
    rw [List.mem_singleton.mp hd]
    by_contra hbreak
    exact hlow (h (by simpa using hbreak))

lemma inline_literal {s : Text} (h : PlainText s) : Inline (0x22 :: escaped s) where
  oneLine c hc := by
    rcases List.mem_cons.mp hc with rfl | hc
    · decide
    · rcases List.mem_append.mp hc with hc | hc
      · obtain ⟨d, hd, hc⟩ := List.mem_flatMap.mp hc
        exact oneLine_escapeChar (h d hd) c hc
      · rw [List.mem_singleton.mp hc]
        decide
  bounded := by
    refine ⟨List.cons_ne_nil _ _, fun c hc => ?_, fun c hc => ?_⟩
    · obtain rfl : (0x22 : CodePoint) = c := by simpa using hc
      decide
    · have hlast : ((0x22 :: s.flatMap escapeChar) ++ [0x22]).getLast? = some (0x22 : CodePoint) :=
        List.getLast?_concat
      rw [escaped, ← List.cons_append, hlast] at hc
      obtain rfl : (0x22 : CodePoint) = c := by simpa using hc
      decide

lemma inline_words : Inline "null" ∧ Inline "true" ∧ Inline "false" := by
  have hnull : ("null" : Text) = [0x6E, 0x75, 0x6C, 0x6C] := rfl
  have htrue : ("true" : Text) = [0x74, 0x72, 0x75, 0x65] := rfl
  have hfalse : ("false" : Text) = [0x66, 0x61, 0x6C, 0x73, 0x65] := rfl
  rw [hnull, htrue, hfalse]
  exact ⟨inline_of_ascii (by simp) (by simp), inline_of_ascii (by simp) (by simp),
    inline_of_ascii (by simp) (by simp)⟩

section
variable {rt : Runtime} {v : Value}

/-- The text of a scalar stands on its line with no white space around it. -/
lemma inline_yamlScalar (hscalar : isContainer v = false) (hplain : Plain rt v) :
    Inline (yamlScalar rt v) := by
  cases v with
  | null => exact inline_words.1
  | bool b =>
      cases b
      · exact inline_words.2.2
      · exact inline_words.2.1
  | int n => exact inline_intText n
  | float x => exact hplain.1
  | str s => exact inline_literal hplain
  | arr items => cases hscalar
  | obj items => cases hscalar

/-- A literal that begins as none of the three words is left to `json.loads`. -/
lemma parseScalar_of_loads {t : Text} (hhead : ∀ c ∈ t.head?, c.val < 0x66)
    (h : rt.loads false t = .ok v) : parseScalar rt t = .ok v := by
  have hword : ∀ word : Text, (∃ c rest, word = c :: rest ∧ 0x66 ≤ c.val) → t ≠ word := by
    rintro word ⟨c, rest, rfl, hc⟩ rfl
    exact absurd (hhead c rfl) (by omega)
  have hnull : t ≠ "null" := hword _ ⟨0x6E, "ull", rfl, by decide⟩
  have htrue : t ≠ "true" := hword _ ⟨0x74, "rue", rfl, by decide⟩
  have hfalse : t ≠ "false" := hword _ ⟨0x66, "alse", rfl, by decide⟩
  rw [parseScalar, if_neg hnull, if_neg htrue, if_neg hfalse, h]

lemma head_intText (n : ℤ) : ∀ c ∈ (intText n).head?, c.val < 0x66 := by
  intro c hc
  have hmem : c ∈ intText n := List.mem_of_mem_head? hc
  unfold intText at hmem
  split_ifs at hmem
  · rcases List.mem_cons.mp hmem with rfl | hmem
    · decide
    · have hdigit := isAsciiDigit_natText hmem
      simp only [isAsciiDigit, Bool.and_eq_true, decide_eq_true_eq] at hdigit
      omega
  · have hdigit := isAsciiDigit_natText hmem
    simp only [isAsciiDigit, Bool.and_eq_true, decide_eq_true_eq] at hdigit
    omega

/-- A scalar is read as the scalar it is. -/
lemma parseScalar_yamlScalar (hscalar : isContainer v = false) (hplain : Plain rt v)
    (hshort : v.shortInts = true) : parseScalar rt (yamlScalar rt v) = .ok v := by
  have hloads : v.floats = [] → v.wellKeyed = true → v.depth = 0 →
      rt.loads false (v.written [] rt.floatRepr) = .ok v := by
    intro hfloats hkeyed hdepth
    have h := @loads_written ⟨rt.loadsDepth, false⟩ [] rt.floatRepr v rfl
      (fun x hx => absurd (hfloats ▸ hx) List.not_mem_nil) hshort hkeyed
    rw [if_pos (by simp [hdepth])] at h
    rw [Runtime.loads, h]
  cases v with
  | null => rfl
  | bool b => cases b <;> rfl
  | int n => exact parseScalar_of_loads (head_intText n) (hloads rfl rfl rfl)
  | float x => exact hplain.2
  | str s =>
      refine parseScalar_of_loads (fun c hc => ?_) (hloads rfl rfl rfl)
      obtain rfl : (0x22 : CodePoint) = c := by simpa [yamlScalar] using hc
      decide
  | arr items => cases hscalar
  | obj items => cases hscalar

end

/-! ## Lines -/

section
variable {rt : Runtime} {indent : ℕ}

lemma drop_spaces (t : Text) : (spaces indent ++ t).drop indent = t :=
  List.drop_left' List.length_replicate

lemma lineIndent_spaces {t : Text} (h : ∀ c ∈ t.head?, c ≠ 0x20) :
    lineIndent (spaces indent ++ t) = indent := by
  have hspaces : ∀ c ∈ spaces indent, decide (c = 0x20) = true := by
    intro c hc
    exact decide_eq_true (List.eq_of_mem_replicate hc)
  have hrest : t.takeWhile (fun c => decide (c = 0x20)) = [] := by
    cases t with
    | nil => rfl
    | cons c t => rw [List.takeWhile_cons, if_neg (by simpa using h c rfl)]
  rw [lineIndent, List.takeWhile_append_of_pos hspaces, hrest, List.append_nil]
  exact List.length_replicate

lemma PlainKey.head_ne {key : Text} (h : PlainKey key) (t : Text) :
    ∀ c ∈ (key ++ 0x3A :: t).head?, c ≠ 0x20 ∧ c ≠ 0x2D := by
  intro c hc
  cases key with
  | nil =>
      obtain rfl : (0x3A : CodePoint) = c := by simpa using hc
      decide
  | cons d key => exact h.start c hc

lemma stripPrefix_dash (t : Text) : stripPrefix "-" (0x2D :: t) = some t := rfl

lemma stripPrefix_dash_eq_none {t : Text} (h : ∀ c ∈ t.head?, c ≠ 0x2D) :
    stripPrefix "-" t = none := by
  cases t with
  | nil => rfl
  | cons c t =>
      have hc : ((0x2D : CodePoint) == c) = false := beq_eq_false_iff_ne.mpr (h c rfl).symm
      have hprefix : ("-" : Text).isPrefixOf (c :: t) = false := by
        show ((0x2D : CodePoint) == c && _) = false
        rw [hc, Bool.false_and]
      rw [stripPrefix, hprefix]
      rfl

/-- The lines that are left begin further to the left, or there are none. -/
def Closes (indent : ℕ) (rest : List Text) : Prop := ∀ line ∈ rest.head?, lineIndent line < indent

/-- A mapping takes a line at its indentation as an item. -/
lemma parseDict_line {fuel depth : ℕ} {result : List (Text × Value)} {key raw : Text}
    {rest : List Text} (hkey : PlainKey key) :
    parseDict rt (fuel + 1) depth indent result ((spaces indent ++ (key ++ 0x3A :: raw)) :: rest) =
      if !isBlank raw then do
        let value ← parseScalar rt (strip raw)
        parseDict rt fuel depth indent (dictSet key value result) rest
      else if opensBlock indent rest then do
        let (value, left) ← parseBlock rt fuel depth ((rest.head?.map lineIndent).getD 0) rest
        parseDict rt fuel depth indent (dictSet key value result) left
      else parseDict rt fuel depth indent (dictSet key (.obj []) result) rest := by
  have hindent : lineIndent (spaces indent ++ (key ++ 0x3A :: raw)) = indent :=
    lineIndent_spaces fun c hc => (hkey.head_ne raw c hc).1
  have hdash : stripPrefix "-" (key ++ 0x3A :: raw) = none :=
    stripPrefix_dash_eq_none fun c hc => (hkey.head_ne raw c hc).2
  have hsplit : splitFirst ":" (key ++ 0x3A :: raw) = some (key, raw) :=
    splitFirst_of_notMem hkey.colon
  rw [parseDict]
  simp only [hindent, lt_irrefl, if_false, drop_spaces, hdash, Option.isSome_none,
    Bool.false_eq_true, hsplit]

/-- A list takes a line at its indentation that begins with a dash as an item. -/
lemma parseList_line {fuel depth : ℕ} {result : List Value} {raw : Text} {rest : List Text} :
    parseList rt (fuel + 1) depth indent result ((spaces indent ++ 0x2D :: raw) :: rest) =
      if !isBlank raw then do
        let value ← parseScalar rt (strip raw)
        parseList rt fuel depth indent (result ++ [value]) rest
      else if opensBlock indent rest then do
        let (item, left) ← parseBlock rt fuel depth ((rest.head?.map lineIndent).getD 0) rest
        parseList rt fuel depth indent (result ++ [item]) left
      else parseList rt fuel depth indent (result ++ [.null]) rest := by
  have hindent : lineIndent (spaces indent ++ 0x2D :: raw) = indent :=
    lineIndent_spaces fun c hc => by
      obtain rfl : (0x2D : CodePoint) = c := by simpa using hc
      decide
  rw [parseList]
  simp only [hindent, lt_irrefl, if_false, ne_eq, not_true_eq_false, drop_spaces,
    stripPrefix_dash]

lemma parseDict_closes {fuel depth : ℕ} {result : List (Text × Value)} {rest : List Text}
    (hfuel : 0 < fuel) (hrest : Closes indent rest) :
    parseDict rt fuel depth indent result rest = .ok (.obj result, rest) := by
  obtain ⟨fuel, rfl⟩ := Nat.exists_eq_succ_of_ne_zero hfuel.ne'
  cases rest with
  | nil => simp [parseDict]
  | cons line rest => rw [parseDict, if_pos (hrest line rfl)]

lemma parseList_closes {fuel depth : ℕ} {result : List Value} {rest : List Text}
    (hfuel : 0 < fuel) (hrest : Closes indent rest) :
    parseList rt fuel depth indent result rest = .ok (.arr result, rest) := by
  obtain ⟨fuel, rfl⟩ := Nat.exists_eq_succ_of_ne_zero hfuel.ne'
  cases rest with
  | nil => simp [parseList]
  | cons line rest => rw [parseList, if_pos (hrest line rfl)]

/-! ## Blocks -/

lemma isContainer_of_not_hollow {v : Value} (hcontainer : isContainer v = true)
    (hsolid : isHollow v = false) : (∃ key item rest, v = .obj ((key, item) :: rest)) ∨
      ∃ item rest, v = .arr (item :: rest) := by
  cases v with
  | arr items =>
      cases items with
      | nil => cases hsolid
      | cons item rest => exact .inr ⟨item, rest, rfl⟩
  | obj items =>
      cases items with
      | nil => cases hsolid
      | cons p rest => exact .inl ⟨p.1, p.2, rest, rfl⟩
  | _ => cases hcontainer

lemma head_yamlDictLines {key : Text} {item : Value} {rest : List (Text × Value)}
    (hkey : PlainKey key) : ∃ line lines,
      yamlDictLines rt indent ((key, item) :: rest) = line :: lines ∧ lineIndent line = indent ∧
        stripPrefix "-" (line.drop indent) = none := by
  have hline : ∀ raw, lineIndent (spaces indent ++ (key ++ 0x3A :: raw)) = indent ∧
      stripPrefix "-" ((spaces indent ++ (key ++ 0x3A :: raw)).drop indent) = none := by
    intro raw
    rw [drop_spaces]
    exact ⟨lineIndent_spaces fun c hc => (hkey.head_ne raw c hc).1,
      stripPrefix_dash_eq_none fun c hc => (hkey.head_ne raw c hc).2⟩
  rw [yamlDictLines]
  split
  · refine ⟨_, _, rfl, ?_⟩
    rw [List.append_assoc]
    exact hline []
  · refine ⟨_, _, rfl, ?_⟩
    rw [List.append_assoc, List.append_assoc]
    exact hline _

lemma head_yamlListLines {item : Value} {rest : List Value} : ∃ line lines,
    yamlListLines rt indent (item :: rest) = line :: lines ∧ lineIndent line = indent ∧
      (stripPrefix "-" (line.drop indent)).isSome = true := by
  have hline : ∀ raw, lineIndent (spaces indent ++ 0x2D :: raw) = indent ∧
      (stripPrefix "-" ((spaces indent ++ 0x2D :: raw).drop indent)).isSome = true := by
    intro raw
    rw [drop_spaces]
    refine ⟨lineIndent_spaces fun c hc => ?_, rfl⟩
    obtain rfl : (0x2D : CodePoint) = c := by simpa using hc
    decide
  rw [yamlListLines]
  split
  · exact ⟨_, _, rfl, hline []⟩
  · refine ⟨_, _, rfl, ?_⟩
    rw [List.append_assoc]
    exact hline _

/-- What follows an item without lines of its own does not open its block. -/
lemma opensBlock_dictLines {items : List (Text × Value)} {rest : List Text}
    (hplain : PlainPairs rt items) (hrest : Closes indent rest) :
    opensBlock indent (yamlDictLines rt indent items ++ rest) = false := by
  cases items with
  | nil =>
      rw [yamlDictLines, List.nil_append]
      cases rest with
      | nil => rfl
      | cons line rest => simpa [opensBlock] using (hrest line rfl).le
  | cons p items =>
      obtain ⟨key, item⟩ := p
      obtain ⟨line, lines, hlines, hindent, -⟩ := @head_yamlDictLines rt indent key item items hplain.1
      rw [hlines, List.cons_append, opensBlock, hindent]
      exact decide_eq_false (lt_irrefl _)

lemma opensBlock_listLines {items : List Value} {rest : List Text} (hrest : Closes indent rest) :
    opensBlock indent (yamlListLines rt indent items ++ rest) = false := by
  cases items with
  | nil =>
      rw [yamlListLines, List.nil_append]
      cases rest with
      | nil => rfl
      | cons line rest => simpa [opensBlock] using (hrest line rfl).le
  | cons item items =>
      obtain ⟨line, lines, hlines, hindent, -⟩ := @head_yamlListLines rt indent item items
      rw [hlines, List.cons_append, opensBlock, hindent]
      exact decide_eq_false (lt_irrefl _)

/-- The lines of a block that is not hollow open it. -/
lemma opensBlock_yamlLines {v : Value} (hcontainer : isContainer v = true)
    (hsolid : isHollow v = false) (hplain : Plain rt v) (rest : List Text) :
    opensBlock indent (yamlLines rt (indent + 2) v ++ rest) = true ∧
      ((yamlLines rt (indent + 2) v ++ rest).head?.map lineIndent).getD 0 = indent + 2 := by
  have hhead : ∃ line lines, yamlLines rt (indent + 2) v = line :: lines ∧
      lineIndent line = indent + 2 := by
    rcases isContainer_of_not_hollow hcontainer hsolid with
      ⟨key, item, items, rfl⟩ | ⟨item, items, rfl⟩
    · obtain ⟨line, lines, hlines, hindent, -⟩ :=
        @head_yamlDictLines rt (indent + 2) key item items hplain.1
      exact ⟨line, lines, by rw [yamlLines, hlines], hindent⟩
    · obtain ⟨line, lines, hlines, hindent, -⟩ := @head_yamlListLines rt (indent + 2) item items
      exact ⟨line, lines, by rw [yamlLines, hlines], hindent⟩
  obtain ⟨line, lines, hlines, hindent⟩ := hhead
  rw [hlines, List.cons_append, opensBlock, hindent]
  exact ⟨decide_eq_true (by omega), by simp [hindent]⟩

lemma yamlLines_ne_nil {v : Value} (hcontainer : isContainer v = true)
    (hsolid : isHollow v = false) (hplain : Plain rt v) : yamlLines rt indent v ≠ [] := by
  rcases isContainer_of_not_hollow hcontainer hsolid with
    ⟨key, item, items, rfl⟩ | ⟨item, items, rfl⟩
  · obtain ⟨line, lines, hlines, -⟩ := @head_yamlDictLines rt indent key item items hplain.1
    rw [yamlLines, hlines]
    exact List.cons_ne_nil _ _
  · obtain ⟨line, lines, hlines, -⟩ := @head_yamlListLines rt indent item items
    rw [yamlLines, hlines]
    exact List.cons_ne_nil _ _

/-- What follows a block at a deeper indentation closes it. -/
lemma closes_of_opensBlock {lines : List Text} (h : opensBlock indent lines = false) :
    Closes (indent + 2) lines := by
  cases lines with
  | nil => exact fun line hline => absurd hline (by simp)
  | cons next lines =>
      intro line hline
      obtain rfl : next = line := by simpa using hline
      have hle := of_decide_eq_false h
      omega

/-- The text of a scalar behind its separator. -/
lemma strip_scalar {t : Text} (h : Inline t) :
    isBlank (0x20 :: t) = false ∧ strip (0x20 :: t) = t := by
  have hstrip : strip (0x20 :: t) = t := by
    have hblank : Blank [0x20] := by
      intro c hc
      rw [List.mem_singleton.mp hc]
      decide
    have haround := strip_blank_around h.bounded hblank blank_nil
    rwa [List.append_nil] at haround
  refine ⟨?_, hstrip⟩
  rw [isBlank, hstrip]
  exact List.isEmpty_eq_false_iff.mpr h.bounded.ne_nil

/-- A scalar comes back as it was. -/
lemma settled_scalar {v : Value} (h : isContainer v = false) :
    isHollow v = false ∧ settled v = v := by
  cases v with
  | arr items => cases h
  | obj items => cases h
  | _ => exact ⟨rfl, rfl⟩

lemma yamlLines_hollow {v : Value} (h : isHollow v = true) :
    isContainer v = true ∧ yamlLines rt indent v = [] := by
  cases v with
  | arr items =>
      cases items with
      | nil => exact ⟨rfl, by rw [yamlLines, yamlListLines]⟩
      | cons item items => cases h
  | obj items =>
      cases items with
      | nil => exact ⟨rfl, by rw [yamlLines, yamlDictLines]⟩
      | cons p items => cases h
  | _ => cases h

/-- One step of the loop over a list: it takes the lines of one item. -/
lemma parseList_item {fuel depth : ℕ} {result : List Value} {item : Value} {left : List Text}
    (hplain : Plain rt item) (hshort : item.shortInts = true)
    (hleft : opensBlock indent left = false)
    (hblock : isContainer item = true → isHollow item = false →
      parseBlock rt fuel depth (indent + 2) (yamlLines rt (indent + 2) item ++ left) =
        .ok (settled item, left)) :
    parseList rt (fuel + 1) depth indent result
        ((if isContainer item then (spaces indent ++ ("-" : Text)) :: yamlLines rt (indent + 2) item
          else [spaces indent ++ ("- " : Text) ++ yamlScalar rt item]) ++ left) =
      parseList rt fuel depth indent
        (result ++ [if isHollow item then .null else settled item]) left := by
  cases hcontainer : isContainer item with
  | false =>
      obtain ⟨hsolid, hsettled⟩ := settled_scalar hcontainer
      obtain ⟨hblank, hstrip⟩ := strip_scalar (inline_yamlScalar hcontainer hplain)
      have hline : spaces indent ++ ("- " : Text) ++ yamlScalar rt item =
          spaces indent ++ 0x2D :: 0x20 :: yamlScalar rt item := by
        rw [List.append_assoc]
        rfl
      rw [if_neg Bool.false_ne_true, List.cons_append, List.nil_append, hline, parseList_line,
        hblank, hstrip, parseScalar_yamlScalar hcontainer hplain hshort, hsolid, hsettled]
      rfl
  | true =>
      have hblank : isBlank ([] : Text) = true := rfl
      have hline : spaces indent ++ ("-" : Text) = spaces indent ++ 0x2D :: [] := rfl
      rw [if_pos rfl, List.cons_append, hline, parseList_line, hblank]
      cases hhollow : isHollow item with
      | true =>
          rw [(yamlLines_hollow hhollow).2, List.nil_append, hleft]
          rfl
      | false =>
          obtain ⟨hopens, hindent⟩ := @opensBlock_yamlLines rt indent item hcontainer hhollow hplain
            left
          rw [hopens, hindent, hblock hcontainer hhollow]
          rfl

/-- One step of the loop over a mapping: it takes the lines of one item. -/
lemma parseDict_item {fuel depth : ℕ} {result : List (Text × Value)} {key : Text} {item : Value}
    {left : List Text} (hkey : PlainKey key) (hplain : Plain rt item)
    (hshort : item.shortInts = true) (hleft : opensBlock indent left = false)
    (hblock : isContainer item = true → isHollow item = false →
      parseBlock rt fuel depth (indent + 2) (yamlLines rt (indent + 2) item ++ left) =
        .ok (settled item, left)) :
    parseDict rt (fuel + 1) depth indent result
        ((if isContainer item then
            (spaces indent ++ key ++ (":" : Text)) :: yamlLines rt (indent + 2) item
          else [spaces indent ++ key ++ (": " : Text) ++ yamlScalar rt item]) ++ left) =
      parseDict rt fuel depth indent
        (dictSet key (if isHollow item then .obj [] else settled item) result) left := by
  cases hcontainer : isContainer item with
  | false =>
      obtain ⟨hsolid, hsettled⟩ := settled_scalar hcontainer
      obtain ⟨hblank, hstrip⟩ := strip_scalar (inline_yamlScalar hcontainer hplain)
      have hline : spaces indent ++ key ++ (": " : Text) ++ yamlScalar rt item =
          spaces indent ++ (key ++ 0x3A :: 0x20 :: yamlScalar rt item) := by
        rw [List.append_assoc, List.append_assoc]
        rfl
      rw [if_neg Bool.false_ne_true, List.cons_append, List.nil_append, hline, parseDict_line hkey,
        hblank, hstrip, parseScalar_yamlScalar hcontainer hplain hshort, hsolid, hsettled]
      rfl
  | true =>
      have hblank : isBlank ([] : Text) = true := rfl
      have hline : spaces indent ++ key ++ (":" : Text) = spaces indent ++ (key ++ 0x3A :: []) :=
        List.append_assoc _ _ _
      rw [if_pos rfl, List.cons_append, hline, parseDict_line hkey, hblank]
      cases hhollow : isHollow item with
      | true =>
          rw [(yamlLines_hollow hhollow).2, List.nil_append, hleft]
          rfl
      | false =>
          obtain ⟨hopens, hindent⟩ := @opensBlock_yamlLines rt indent item hcontainer hhollow hplain
            left
          rw [hopens, hindent, hblock hcontainer hhollow]
          rfl

/-- An item takes a line at least. -/
lemma length_left (item : Value) (line line' : Text) (left : List Text) :
    left.length + 1 ≤
        ((if isContainer item then line :: yamlLines rt (indent + 2) item else [line']) ++
          left).length := by
  cases isContainer item <;> simp

mutual

/-- A block is read off the lines it was written in. -/
lemma parseBlock_yamlLines : ∀ (v : Value) {fuel depth indent : ℕ} {rest : List Text},
    isContainer v = true → isHollow v = false → Plain rt v → v.shortInts = true →
    v.wellKeyed = true → v.depth ≤ depth →
    2 * (yamlLines rt indent v ++ rest).length + 2 ≤ fuel → Closes indent rest →
    parseBlock rt fuel depth indent (yamlLines rt indent v ++ rest) = .ok (settled v, rest)
  | .arr items, fuel, depth, indent, rest, hcontainer, hsolid, hplain, hshort, hkeyed, hdepth,
      hfuel, hrest => by
      obtain ⟨fuel, rfl⟩ : ∃ n, fuel = n + 1 := ⟨fuel - 1, by omega⟩
      obtain ⟨depth, rfl⟩ : ∃ n, depth = n + 1 := ⟨depth - 1, by rw [Value.depth] at hdepth; omega⟩
      have hlist := @parseList_yamlListLines items fuel depth indent [] rest hplain hshort hkeyed
        (by rw [Value.depth] at hdepth; omega) (by rw [yamlLines] at hfuel; omega) hrest
      rcases isContainer_of_not_hollow hcontainer hsolid with ⟨key, item, others, heq⟩ |
        ⟨item, others, heq⟩
      · cases heq
      · obtain rfl := Value.arr.inj heq
        obtain ⟨line, lines, hlines, -, hdash⟩ := @head_yamlListLines rt indent item others
        rw [yamlLines] 
        rw [hlines, List.cons_append] at hlist ⊢
        rw [parseBlock]
        simp only [hdash, if_true]
        exact hlist
  | .obj items, fuel, depth, indent, rest, hcontainer, hsolid, hplain, hshort, hkeyed, hdepth,
      hfuel, hrest => by
      obtain ⟨fuel, rfl⟩ : ∃ n, fuel = n + 1 := ⟨fuel - 1, by omega⟩
      obtain ⟨depth, rfl⟩ : ∃ n, depth = n + 1 := ⟨depth - 1, by rw [Value.depth] at hdepth; omega⟩
      rw [Value.wellKeyed, Bool.and_eq_true, decide_eq_true_eq] at hkeyed
      have hdict := @parseDict_yamlDictLines items fuel depth indent [] rest hplain hshort hkeyed.2
        hkeyed.1
        (by rw [Value.depth] at hdepth; omega) (by rw [yamlLines] at hfuel; omega) hrest
      rcases isContainer_of_not_hollow hcontainer hsolid with ⟨key, item, others, heq⟩ |
        ⟨item, others, heq⟩
      · obtain rfl := Value.obj.inj heq
        obtain ⟨line, lines, hlines, -, hdash⟩ :=
          @head_yamlDictLines rt indent key item others hplain.1
        rw [yamlLines]
        rw [hlines, List.cons_append] at hdict ⊢
        rw [parseBlock]
        simp only [hdash, Option.isSome_none, Bool.false_eq_true, if_false]
        exact hdict
      · cases heq
  | .null, _, _, _, _, hcontainer, _, _, _, _, _, _, _ => nomatch hcontainer
  | .bool _, _, _, _, _, hcontainer, _, _, _, _, _, _, _ => nomatch hcontainer
  | .int _, _, _, _, _, hcontainer, _, _, _, _, _, _, _ => nomatch hcontainer
  | .float _, _, _, _, _, hcontainer, _, _, _, _, _, _, _ => nomatch hcontainer
  | .str _, _, _, _, _, hcontainer, _, _, _, _, _, _, _ => nomatch hcontainer

/-- The loop over a list goes through the items it was written from. -/
lemma parseList_yamlListLines : ∀ (items : List Value) {fuel depth indent : ℕ}
    {result : List Value} {rest : List Text}, PlainItems rt items → shortIntsItems items = true →
    wellKeyedItems items = true → depthItems items ≤ depth →
    2 * (yamlListLines rt indent items ++ rest).length + 1 ≤ fuel → Closes indent rest →
    parseList rt fuel depth indent result (yamlListLines rt indent items ++ rest) =
      .ok (.arr (result ++ settledItems items), rest)
  | [], fuel, depth, indent, result, rest, hplain, hshort, hkeyed, hdepth, hfuel, hrest => by
      rw [yamlListLines, settledItems, List.append_nil, List.nil_append]
      exact parseList_closes (by omega) hrest
  | item :: items, fuel, depth, indent, result, rest, hplain, hshort, hkeyed, hdepth, hfuel,
      hrest => by
      obtain ⟨fuel, rfl⟩ : ∃ n, fuel = n + 1 := ⟨fuel - 1, by omega⟩
      rw [shortIntsItems, Bool.and_eq_true] at hshort
      rw [wellKeyedItems, Bool.and_eq_true] at hkeyed
      rw [depthItems] at hdepth
      rw [yamlListLines] at hfuel ⊢
      rw [settledItems]
      have hlength := @length_left rt indent item (spaces indent ++ ("-" : Text))
        (spaces indent ++ ("- " : Text) ++ yamlScalar rt item) (yamlListLines rt indent items ++ rest)
      rw [List.append_assoc] at hfuel ⊢
      have hopens : opensBlock indent (yamlListLines rt indent items ++ rest) = false :=
        opensBlock_listLines hrest
      rw [parseList_item hplain.1 hshort.1 hopens fun hcontainer hsolid =>
        parseBlock_yamlLines item hcontainer hsolid hplain.1 hshort.1 hkeyed.1 (by omega)
          (by rw [hcontainer, if_pos rfl] at hfuel; simp at hfuel ⊢; omega)
          (closes_of_opensBlock hopens),
        parseList_yamlListLines items hplain.2 hshort.2 hkeyed.2 (by omega) (by omega) hrest,
        List.append_assoc]
      rfl

/-- The loop over a mapping goes through the items it was written from. -/
lemma parseDict_yamlDictLines : ∀ (items : List (Text × Value)) {fuel depth indent : ℕ}
    {result : List (Text × Value)} {rest : List Text}, PlainPairs rt items →
    shortIntsPairs items = true → wellKeyedPairs items = true →
    (dictKeys (result ++ items)).Nodup → depthPairs items ≤ depth →
    2 * (yamlDictLines rt indent items ++ rest).length + 1 ≤ fuel → Closes indent rest →
    parseDict rt fuel depth indent result (yamlDictLines rt indent items ++ rest) =
      .ok (.obj (result ++ settledPairs items), rest)
  | [], fuel, depth, indent, result, rest, hplain, hshort, hkeyed, hnodup, hdepth, hfuel,
      hrest => by
      rw [yamlDictLines, settledPairs, List.append_nil, List.nil_append]
      exact parseDict_closes (by omega) hrest
  | (key, item) :: items, fuel, depth, indent, result, rest, hplain, hshort, hkeyed, hnodup,
      hdepth, hfuel, hrest => by
      obtain ⟨fuel, rfl⟩ : ∃ n, fuel = n + 1 := ⟨fuel - 1, by omega⟩
      rw [shortIntsPairs, Bool.and_eq_true] at hshort
      rw [wellKeyedPairs, Bool.and_eq_true] at hkeyed
      rw [depthPairs] at hdepth
      rw [yamlDictLines] at hfuel ⊢
      rw [settledPairs]
      have hlength := @length_left rt indent item (spaces indent ++ key ++ (":" : Text))
        (spaces indent ++ key ++ (": " : Text) ++ yamlScalar rt item)
        (yamlDictLines rt indent items ++ rest)
      rw [List.append_assoc] at hfuel ⊢
      have hopens : opensBlock indent (yamlDictLines rt indent items ++ rest) = false :=
        opensBlock_dictLines hplain.2.2 hrest
      have hnew : key ∉ dictKeys result := by
        rw [dictKeys, List.map_append, List.nodup_append] at hnodup
        exact fun hmem => hnodup.2.2 key hmem key List.mem_cons_self rfl
      rw [parseDict_item hplain.1 hplain.2.1 hshort.1 hopens fun hcontainer hsolid =>
        parseBlock_yamlLines item hcontainer hsolid hplain.2.1 hshort.1 hkeyed.1 (by omega)
          (by rw [hcontainer, if_pos rfl] at hfuel; simp at hfuel ⊢; omega)
          (closes_of_opensBlock hopens), dictSet_of_notMem hnew,
        parseDict_yamlDictLines items hplain.2.2 hshort.2 hkeyed.2
          (by simpa [dictKeys] using hnodup) (by omega) (by omega) hrest, List.append_assoc]
      rfl

end

end

end Yaml

end AgentOrch
