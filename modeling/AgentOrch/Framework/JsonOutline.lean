import AgentOrch.Framework.JsonScan
import AgentOrch.Framework.Lines

/-!
# Inside and outside the strings of a text

A quote opens a string or closes it, unless a backslash stands before it.  Outside its strings a
text that is scanned whole holds the few characters of `bare` alone, so a Unicode line boundary
stands inside a string.  A piece that such boundaries cut out of a text has its strings where the
text has none, and the other way round (`mirrored`).
-/

namespace AgentOrch.Json

open Py

/-! ## Places -/

/-- Where a text stands: outside its strings, in one, or behind a backslash in one. -/
inductive Place
  | outside
  | inside
  | escape
  deriving DecidableEq

/-- The characters of the literals, the numbers, the punctuation and the white space. -/
def bare : Text := "nulltruefalseNaNInfinity+-.E0123456789[]\x7b\x7d,: \t\n\r"

/-- The place behind one more character, unless it may not stand there. -/
def Place.next : Place → CodePoint → Option Place
  | .outside, c => if c = 0x22 then some .inside else if c ∈ bare then some .outside else none
  | .inside, c =>
    if c = 0x22 then some .outside else if c = 0x5C then some .escape else some .inside
  | .escape, _ => some .inside

def Place.along (p : Place) (t : Text) : Option Place := t.foldlM Place.next p

@[simp] lemma along_nil (p : Place) : p.along [] = some p := rfl

@[simp] lemma along_cons (p : Place) (c : CodePoint) (t : Text) :
    p.along (c :: t) = (p.next c).bind fun q => q.along t := by
  simp [Place.along, List.foldlM_cons]

lemma along_append (p : Place) (s t : Text) :
    p.along (s ++ t) = (p.along s).bind fun q => q.along t := by
  simp [Place.along, List.foldlM_append]

lemma along_append_eq_some {p q : Place} {s t : Text} :
    p.along (s ++ t) = some q ↔ ∃ r, p.along s = some r ∧ r.along t = some q := by
  rw [along_append, Option.bind_eq_some_iff]

/-- Outside, a text of bare characters stays outside. -/
lemma along_bare {t : Text} (h : t ⊆ bare) : Place.outside.along t = some .outside := by
  induction t with
  | nil => rfl
  | cons c t ih =>
      have hc : c ∈ bare := h List.mem_cons_self
      have hquote : c ≠ 0x22 := by
        rintro rfl
        revert hc
        decide
      rw [along_cons, Place.next, if_neg hquote, if_pos hc, Option.bind_some,
        ih fun d hd => h (List.mem_cons_of_mem c hd)]

/-! ## The places of the tokens -/

def StringState.place : StringState → Place
  | .normal => .inside
  | .escape => .escape
  | .hex _ _ => .inside

/-- A string literal ends outside, at its closing quote. -/
lemma scanPieces_place {t : Text} : ∀ {st : StringState} {ps : List Piece} {rest : Text},
    scanPieces st t = some (ps, rest) → ∃ x, t = x ++ rest ∧ st.place.along x = some .outside := by
  induction t with
  | nil => intro st ps rest h; simp [scanPieces] at h
  | cons c t ih =>
      intro st ps rest h
      have step : ∀ {st' : StringState} {ps' : List Piece}, scanPieces st' t = some (ps', rest) →
          st.place.next c = some st'.place →
            ∃ x, c :: t = x ++ rest ∧ st.place.along x = some .outside := by
        intro st' ps' hscan hnext
        obtain ⟨x, rfl, hx⟩ := ih hscan
        exact ⟨c :: x, rfl, by rw [along_cons, hnext, Option.bind_some, hx]⟩
      have mapped : ∀ {st' : StringState} {p : Piece},
          (scanPieces st' t).map (fun r => (p :: r.1, r.2)) = some (ps, rest) →
            ∃ ps', scanPieces st' t = some (ps', rest) := by
        intro st' p hmap
        obtain ⟨⟨ps', rest'⟩, hscan, heq⟩ := Option.map_eq_some_iff.mp hmap
        obtain ⟨-, rfl⟩ := Prod.mk.inj heq
        exact ⟨ps', hscan⟩
      cases st with
      | normal =>
          simp only [scanPieces] at h
          split_ifs at h with hquote hslash hcontrol
          · obtain ⟨-, rfl⟩ := Prod.mk.inj (Option.some.inj h)
            exact ⟨[c], rfl, by simp [StringState.place, Place.next, hquote]⟩
          · exact step h (by rw [hslash]; rfl)
          · obtain ⟨ps', hscan⟩ := mapped h
            exact step hscan (by simp [StringState.place, Place.next, hquote, hslash])
      | escape =>
          simp only [scanPieces] at h
          split at h
          · exact step h rfl
          · split at h
            · cases h
            · obtain ⟨ps', hscan⟩ := mapped h
              exact step hscan rfl
      | hex left acc =>
          simp only [scanPieces] at h
          cases hdigit : hexDigit c with
          | none => simp [hdigit] at h
          | some d =>
              have hquote : c ≠ 0x22 := by
                rintro rfl
                have hnone : hexDigit 0x22 = none := by decide
                rw [hnone] at hdigit
                cases hdigit
              have hslash : c ≠ 0x5C := by
                rintro rfl
                have hnone : hexDigit 0x5C = none := by decide
                rw [hnone] at hdigit
                cases hdigit
              have hnext : Place.inside.next c = some .inside := by
                simp [Place.next, hquote, hslash]
              simp only [hdigit] at h
              split at h
              · obtain ⟨ps', hscan⟩ := mapped h
                exact step hscan hnext
              · exact step h hnext

/-- Bare characters lead from one text to the other. -/
def Bares (t rest : Text) : Prop := ∃ x, t = x ++ rest ∧ x ⊆ bare

lemma Bares.refl (t : Text) : Bares t t := ⟨[], rfl, List.nil_subset _⟩

lemma Bares.trans {s t rest : Text} (h : Bares s t) (h' : Bares t rest) : Bares s rest := by
  obtain ⟨x, rfl, hx⟩ := h
  obtain ⟨y, rfl, hy⟩ := h'
  exact ⟨x ++ y, (List.append_assoc x y rest).symm, List.append_subset.mpr ⟨hx, hy⟩⟩

lemma stripPrefix_bares {p t rest : Text} (hp : p ⊆ bare) (h : stripPrefix p t = some rest) :
    Bares t rest := by
  simp only [stripPrefix, Option.ite_none_right_eq_some, Option.some.injEq] at h
  obtain ⟨hpre, rfl⟩ := h
  obtain ⟨u, rfl⟩ := List.isPrefixOf_iff_prefix.mp hpre
  exact ⟨p, by simp, hp⟩

lemma digits_bares (t : Text) : Bares t (t.dropWhile isAsciiDigit) := by
  refine ⟨t.takeWhile isAsciiDigit, (List.takeWhile_append_dropWhile).symm, fun c hc => ?_⟩
  have hdigit : isAsciiDigit c = true := List.mem_takeWhile_imp hc
  simp only [isAsciiDigit, Bool.and_eq_true, decide_eq_true_eq] at hdigit
  have hall : ∀ n < 0x3A, 0x30 ≤ n → Fin.ofNat 0x110000 n ∈ bare := by decide
  have hmem := hall c.val (by omega) hdigit.1
  rwa [Fin.ofNat_val_eq_self] at hmem

lemma scanFraction_bares (t : Text) : Bares t (scanFraction t).2 := by
  simp only [scanFraction]
  split
  · exact .refl t
  · next u hu =>
    split
    · exact .refl t
    · exact (stripPrefix_bares (by decide) hu).trans (digits_bares u)

lemma scanSigned_bares {t digits rest : Text} {negative : Bool}
    (h : scanSigned t = some (negative, digits, rest)) : Bares t rest := by
  simp only [scanSigned] at h
  split at h
  · next u hu =>
    split at h
    · cases h
    · obtain ⟨-, -, rfl⟩ : _ ∧ _ ∧ u.dropWhile isAsciiDigit = rest := by simpa using h
      exact (stripPrefix_bares (by decide) hu).trans (digits_bares u)
  · split at h
    · cases h
    · obtain ⟨-, -, rfl⟩ : _ ∧ _ ∧
          ((stripPrefix "+" t).getD t).dropWhile isAsciiDigit = rest := by simpa using h
      cases hplus : stripPrefix "+" t with
      | none => exact digits_bares t
      | some u => exact (stripPrefix_bares (by decide) hplus).trans (digits_bares u)

lemma scanExponent_bares (t : Text) : Bares t (scanExponent t).2 := by
  simp only [scanExponent]
  split
  · exact .refl t
  · next u hu =>
    have hmark : Bares t u := by
      cases he : stripPrefix "e" t with
      | some u' =>
          obtain rfl : u' = u := by simpa [he] using hu
          exact stripPrefix_bares (by decide) he
      | none => exact stripPrefix_bares (p := "E") (by decide) (by simpa [he] using hu)
    split
    · exact .refl t
    · next h => exact hmark.trans (scanSigned_bares h)

lemma scanNumber_bares {negative : Bool} {t rest : Text} {k : Token}
    (h : scanNumber negative t = (k, rest)) : Bares t rest := by
  have hafter {u : Text} (hu : Bares t u) : Bares t (scanExponent (scanFraction u).2).2 :=
    (hu.trans (scanFraction_bares u)).trans (scanExponent_bares _)
  cases hzero : stripPrefix "0" t with
  | some u =>
      have hu : Bares t u := stripPrefix_bares (by decide) hzero
      simp only [scanNumber, hzero] at h
      split_ifs at h
      all_goals
        obtain ⟨-, rfl⟩ := Prod.mk.inj h
        first | exact hu | exact hafter hu
  | none =>
      have hu := digits_bares t
      simp only [scanNumber, hzero] at h
      split_ifs at h
      all_goals
        obtain ⟨-, rfl⟩ := Prod.mk.inj h
        first | exact hu | exact hafter hu

lemma scanNumber_ne_str {negative : Bool} {t rest : Text} (k : Text) :
    scanNumber negative t ≠ (.str k, rest) := by
  intro h
  cases hzero : stripPrefix "0" t with
  | some u =>
      simp only [scanNumber, hzero] at h
      split_ifs at h <;> cases (Prod.mk.inj h).1
  | none =>
      simp only [scanNumber, hzero] at h
      split_ifs at h <;> cases (Prod.mk.inj h).1

lemma scanLiteral_bares {t rest : Text} {v : Value} (h : scanLiteral t = some (v, rest)) :
    Bares t rest := by
  obtain ⟨p, hp, hstrip⟩ := List.exists_of_findSome?_eq_some h
  obtain ⟨rest', hrest, heq⟩ := Option.map_eq_some_iff.mp hstrip
  obtain ⟨-, rfl⟩ := Prod.mk.inj heq
  have hall : ∀ q ∈ literals, q.1 ⊆ bare := by decide
  exact stripPrefix_bares (hall p hp) hrest

/-- A token that is not bad begins outside and ends outside. -/
lemma scanToken_place {c : CodePoint} {t rest : Text} {k : Token}
    (h : scanToken c t = (k, rest)) (hbad : ∀ e, k ≠ .bad e) :
    ∃ x, c :: t = x ++ rest ∧ Place.outside.along x = some .outside := by
  have hbares : Bares (c :: t) rest →
      ∃ x, c :: t = x ++ rest ∧ Place.outside.along x = some .outside :=
    fun ⟨x, hx, hsub⟩ => ⟨x, hx, along_bare hsub⟩
  simp only [scanToken] at h
  split at h
  · next token hpunctuation =>
    obtain ⟨-, rfl⟩ := Prod.mk.inj h
    apply hbares
    refine ⟨[c], rfl, fun d hd => ?_⟩
    obtain rfl := List.mem_singleton.mp hd
    unfold punctuation at hpunctuation
    split_ifs at hpunctuation
    all_goals
      subst d
      decide
  · split at h
    · next hquote =>
      split at h
      · next ps u hpieces =>
        obtain ⟨-, rfl⟩ := Prod.mk.inj h
        obtain ⟨x, rfl, hx⟩ := scanPieces_place hpieces
        refine ⟨c :: x, rfl, ?_⟩
        rw [along_cons, Place.next, if_pos hquote]
        exact hx
      · exact absurd (Prod.mk.inj h).1.symm (hbad _)
    · apply hbares
      split at h
      · next hliteral =>
        obtain ⟨-, rfl⟩ := Prod.mk.inj h
        exact scanLiteral_bares hliteral
      · split at h
        · next hminus =>
          have hc : Bares (c :: t) t := ⟨[c], rfl, by rw [hminus]; decide⟩
          exact hc.trans (scanNumber_bares h)
        · exact scanNumber_bares h

/-- A text that is scanned whole begins outside its strings and ends outside them. -/
theorem Scans.along {t : Text} {ts : List Token} (h : Scans t ts) :
    Place.outside.along t = some .outside := by
  have hspace {w : Text} (hw : w.all isJsonSpace = true) : w ⊆ bare := by
    intro c hc
    have hc' := List.all_eq_true.mp hw c hc
    simp only [isJsonSpace, Bool.or_eq_true, beq_iff_eq] at hc'
    rcases hc' with ((rfl | rfl) | rfl) | rfl <;> decide
  induction h with
  | done hw => exact along_bare (hspace hw)
  | token hw hc hscan hbad hrest ih =>
      obtain ⟨x, hx, hplace⟩ := scanToken_place hscan hbad
      rw [hx, along_append_eq_some]
      refine ⟨.outside, along_bare (hspace hw), ?_⟩
      rw [along_append_eq_some]
      exact ⟨.outside, hplace, ih⟩

/-! ## A string without escapes -/

/-- Without a backslash a string literal is the string. -/
lemma scanPieces_raw {t : Text} : ∀ {ps : List Piece} {rest : Text},
    scanPieces .normal t = some (ps, rest) → (0x5C : CodePoint) ∉ t →
      t = joinFrom none ps ++ 0x22 :: rest ∧ (0x22 : CodePoint) ∉ joinFrom none ps := by
  induction t with
  | nil => intro ps rest h; simp [scanPieces] at h
  | cons c t ih =>
      intro ps rest h hslash
      rw [List.mem_cons, not_or] at hslash
      simp only [scanPieces] at h
      split_ifs at h with hquote hback hcontrol
      · obtain ⟨rfl, rfl⟩ := Prod.mk.inj (Option.some.inj h)
        exact ⟨by rw [hquote]; rfl, by simp [joinFrom]⟩
      · exact absurd hback.symm hslash.1
      · obtain ⟨⟨ps', rest'⟩, hscan, heq⟩ := Option.map_eq_some_iff.mp h
        obtain ⟨rfl, rfl⟩ := Prod.mk.inj heq
        obtain ⟨ht, hno⟩ := ih hscan hslash.2
        have hjoin : joinFrom none (.plain c :: ps') = c :: joinFrom none ps' := rfl
        rw [hjoin, List.cons_append, ← ht]
        exact ⟨rfl, by simp [hno, Ne.symm hquote]⟩

/-- Without a backslash a string token stands in the text between quotes. -/
lemma Scans.exists_str {t : Text} {ts : List Token} (h : Scans t ts)
    (hslash : (0x5C : CodePoint) ∉ t) {k : Text} (hk : .str k ∈ ts) :
    ∃ x y, t = x ++ 0x22 :: (k ++ 0x22 :: y) ∧ Place.outside.along x = some .outside ∧
      (0x22 : CodePoint) ∉ k := by
  induction h with
  | done hw => cases hk
  | @token w t rest c token ts hw hc hscan hbad hrest ih =>
      have hw' : Place.outside.along w = some .outside := (Scans.done hw).along
      rw [List.mem_append, List.mem_cons, not_or, not_or] at hslash
      rcases List.mem_cons.mp hk with rfl | hk
      · simp only [scanToken] at hscan
        split at hscan
        · next hpunctuation =>
          obtain ⟨rfl, -⟩ := Prod.mk.inj hscan
          unfold punctuation at hpunctuation
          split_ifs at hpunctuation <;> cases hpunctuation
        · split at hscan
          · next hquote =>
            split at hscan
            · next ps u hpieces =>
              obtain ⟨hjoin, rfl⟩ := Prod.mk.inj hscan
              obtain ⟨ht, hno⟩ := scanPieces_raw hpieces hslash.2.2
              obtain rfl : joinFrom none ps = k := by simpa using hjoin
              exact ⟨w, u, by rw [hquote, ← ht], hw', hno⟩
            · cases (Prod.mk.inj hscan).1
          · split at hscan
            · cases (Prod.mk.inj hscan).1
            · split at hscan
              · exact absurd hscan (scanNumber_ne_str k)
              · exact absurd hscan (scanNumber_ne_str k)
      · obtain ⟨x, hx, hplace⟩ := scanToken_place hscan hbad
        have hrest' : (0x5C : CodePoint) ∉ rest := by
          intro hmem
          have hall : (0x5C : CodePoint) ∈ c :: t := by
            rw [hx]
            exact List.mem_append_right x hmem
          rcases List.mem_cons.mp hall with h | h
          · exact hslash.2.1 h
          · exact hslash.2.2 h
        obtain ⟨x', y, rfl, hplace', hno⟩ := ih hrest' hk
        refine ⟨w ++ x ++ x', y, by rw [hx]; simp, ?_, hno⟩
        rw [along_append_eq_some]
        refine ⟨.outside, ?_, hplace'⟩
        rw [along_append_eq_some]
        exact ⟨.outside, hw', hplace⟩

/-! ## Pieces -/

/-- The one is outside its strings and the other inside. -/
def Mirrored (p q : Place) : Prop :=
  (p = .outside ∧ q = .inside) ∨ (p = .inside ∧ q = .outside)

lemma Mirrored.symm {p q : Place} (h : Mirrored p q) : Mirrored q p := by
  rcases h with ⟨rfl, rfl⟩ | ⟨rfl, rfl⟩
  · exact .inr ⟨rfl, rfl⟩
  · exact .inl ⟨rfl, rfl⟩

/-- A quote leads both over; a backslash is not bare, so the one outside refuses it. -/
lemma mirrored_next {c : CodePoint} {p q : Place} (hp : Place.outside.next c = some p)
    (hq : Place.inside.next c = some q) : Mirrored p q ∧ c ≠ 0x5C := by
  simp only [Place.next] at hp hq
  by_cases hquote : c = 0x22
  · rw [if_pos hquote] at hp hq
    refine ⟨.inr ⟨(Option.some.inj hp).symm, (Option.some.inj hq).symm⟩, ?_⟩
    rw [hquote]
    decide
  · rw [if_neg hquote] at hp hq
    split_ifs at hp with hbare
    have hback : c ≠ 0x5C := by
      rintro rfl
      revert hbare
      decide
    rw [if_neg hback] at hq
    exact ⟨.inl ⟨(Option.some.inj hp).symm, (Option.some.inj hq).symm⟩, hback⟩

/-- Where a text stands both ways it stays mirrored, and no backslash stands there. -/
lemma Mirrored.along {x : Text} : ∀ {p q p' q' : Place}, Mirrored p q →
    p.along x = some p' → q.along x = some q' → Mirrored p' q' ∧ (0x5C : CodePoint) ∉ x := by
  induction x with
  | nil =>
      intro p q p' q' h hp hq
      obtain rfl := Option.some.inj hp
      obtain rfl := Option.some.inj hq
      exact ⟨h, List.not_mem_nil⟩
  | cons c x ih =>
      intro p q p' q' h hp hq
      rw [along_cons, Option.bind_eq_some_iff] at hp hq
      obtain ⟨r, hr, hp⟩ := hp
      obtain ⟨r', hr', hq⟩ := hq
      have hnext : Mirrored r r' ∧ c ≠ 0x5C := by
        rcases h with ⟨rfl, rfl⟩ | ⟨rfl, rfl⟩
        · exact mirrored_next hr hr'
        · exact (mirrored_next hr' hr).imp_left Mirrored.symm
      obtain ⟨hmirrored, hx⟩ := ih hnext.1 hp hq
      exact ⟨hmirrored, by simp [hx, hnext.2.symm]⟩

/-- Outside, a text without a quote is bare. -/
lemma bare_of_along {x : Text} {q : Place} (hquote : (0x22 : CodePoint) ∉ x)
    (h : Place.outside.along x = some q) : x ⊆ bare := by
  induction x with
  | nil => exact List.nil_subset _
  | cons c x ih =>
      rw [List.mem_cons, not_or] at hquote
      rw [along_cons, Place.next, if_neg (Ne.symm hquote.1)] at h
      split_ifs at h with hc
      · exact List.cons_subset.mpr ⟨hc, ih hquote.2 h⟩
      · cases h

/-- Inside a string, the strings of a text are bare. -/
lemma Scans.bare_of_inside {t : Text} {ts : List Token} (h : Scans t ts) {q : Place}
    (hq : Place.inside.along t = some q) {k : Text} (hk : .str k ∈ ts) : k ⊆ bare := by
  obtain ⟨-, hslash⟩ := Mirrored.along (.inl ⟨rfl, rfl⟩) h.along hq
  obtain ⟨x, y, rfl, hx, hquote⟩ := h.exists_str hslash hk
  rw [along_append_eq_some] at hq
  obtain ⟨r, hr, hq⟩ := hq
  obtain ⟨hr', -⟩ := Mirrored.along (.inl ⟨rfl, rfl⟩) hx hr
  obtain rfl : r = .inside := by simpa [Mirrored] using hr'
  rw [along_cons, Option.bind_eq_some_iff] at hq
  obtain ⟨r', hr', hq⟩ := hq
  obtain rfl : Place.outside = r' := Option.some.inj hr'
  rw [along_append_eq_some] at hq
  obtain ⟨r'', hr'', -⟩ := hq
  exact bare_of_along hquote hr''

/-- A line boundary that ends no line of its own is not bare. -/
lemma boundary_notMem_bare {c : CodePoint} (hbreak : isLineBreak c = true) (hcr : c ≠ 0x0D)
    (hlf : c ≠ 0x0A) : c ∉ bare ∧ c ≠ 0x22 ∧ c ≠ 0x5C := by
  have hall : (bare ++ [0x22, 0x5C]).all (fun c => !isLineBreak c || c == 0x0D || c == 0x0A) =
      true := by decide
  have hno : c ∉ bare ++ [0x22, 0x5C] := by
    intro hmem
    have hc := List.all_eq_true.mp hall c hmem
    simp [hbreak, hcr, hlf] at hc
  simp only [List.mem_append, List.mem_cons, List.not_mem_nil, not_or] at hno
  exact ⟨hno.1, hno.2.1, hno.2.2.1⟩

/-- Behind such a boundary a text stands inside a string. -/
lemma inside_of_endsLine {a : Text} (hne : a ≠ []) (hends : EndsLine a) (hfree : LineFree a)
    {p : Place} (h : Place.outside.along a = some p) : p = .inside := by
  obtain ⟨b, c, rfl⟩ := (List.eq_nil_or_concat' a).resolve_left hne
  have hc := hfree c (by simp)
  obtain ⟨hbare, hquote, hback⟩ := boundary_notMem_bare (hends c (by simp)) hc.1 hc.2
  obtain ⟨q, -, hq⟩ := along_append_eq_some.mp h
  rw [along_cons, Option.bind_eq_some_iff] at hq
  obtain ⟨r, hr, hp⟩ := hq
  obtain rfl : r = p := Option.some.inj hp
  cases q with
  | outside =>
      rw [Place.next, if_neg hquote, if_neg hbare] at hr
      cases hr
  | inside =>
      rw [Place.next, if_neg hquote, if_neg hback] at hr
      exact (Option.some.inj hr).symm
  | escape => exact (Option.some.inj hr).symm

/-- The pieces that line boundaries cut out of a text hold bare strings alone. -/
theorem Scans.bare_of_piece {body piece : Text} {ts us : List Token} (hbody : Scans body us)
    (hfree : LineFree body) (hlines : ¬ OneLine body) (hpiece : piece ∈ splitlines body)
    (h : Scans piece ts) {k : Text} (hk : .str k ∈ ts) : k ⊆ bare := by
  have hne : piece ≠ [] := by
    rintro rfl
    have hnil : Scans [] [] := .done rfl
    rw [h.unique hnil] at hk
    cases hk
  obtain ⟨a, z, hsplit, hone, hends, hbegins⟩ := (mem_splitlines_iff hne).mp hpiece
  have hplace := hbody.along
  rw [hsplit, along_append_eq_some] at hplace
  obtain ⟨q, hq, hz⟩ := hplace
  rw [along_append_eq_some] at hq
  obtain ⟨p, hp, hq⟩ := hq
  by_cases ha : a = []
  · -- the piece ends outside, where no boundary may follow
    subst ha
    obtain rfl : Place.outside = p := Option.some.inj hp
    obtain rfl : Place.outside = q := Option.some.inj (h.along.symm.trans hq)
    cases z with
    | nil =>
        rw [List.nil_append, List.append_nil] at hsplit
        rw [hsplit] at hlines
        exact absurd hone hlines
    | cons c z =>
        have hc := hfree c (by rw [hsplit]; simp)
        obtain ⟨hbare, hquote, -⟩ := boundary_notMem_bare (hbegins c rfl) hc.1 hc.2
        rw [along_cons, Place.next, if_neg hquote, if_neg hbare] at hz
        cases hz
  · have hfree' : LineFree a := fun c hc => hfree c (by rw [hsplit]; simp [hc])
    obtain rfl := inside_of_endsLine ha hends hfree' hp
    exact h.bare_of_inside hq hk

/-! ## The lines of a text -/

/-- A text gives the tokens of its lines, one line after the other. -/
theorem scans_plainLines {t : Text} : ∀ {vs : List Token}, Scans t vs ↔
    ∃ tss, List.Forall₂ Scans (plainLines t) tss ∧ vs = tss.flatten := by
  induction t using plainLines_induction with
  | last t h =>
      intro vs
      rw [plainLines_of_lineFree h]
      constructor
      · exact fun hscan => ⟨[vs], .cons hscan .nil, by simp⟩
      · rintro ⟨_, hall, rfl⟩
        cases hall with
        | cons hscan hnil =>
            cases hnil
            simpa using hscan
  | step a c b ha hc ih =>
      intro vs
      rw [plainLines_append ha hc, scans_lineEnd_iff (isLineEnd_iff.mp hc)]
      constructor
      · rintro ⟨ts, us, rfl, hts, hus⟩
        obtain ⟨tss, hall, rfl⟩ := ih.mp hus
        exact ⟨ts :: tss, .cons hts hall, rfl⟩
      · rintro ⟨_, hall, rfl⟩
        cases hall with
        | @cons _ ts _ tss hscan hall =>
            exact ⟨ts, tss.flatten, rfl, hscan, ih.mpr ⟨tss, hall, rfl⟩⟩

/-- A text and one of its lines give the same tokens when the other lines are white space. -/
theorem scans_of_line {t l : Text} {pre suf : List Text} {vs : List Token}
    (hlines : plainLines t = pre ++ l :: suf) (hl : Scans l vs) :
    Scans t vs ↔ ∀ l' ∈ pre ++ suf, l'.all isJsonSpace = true := by
  have blanks : ∀ {ls : List Text} {tss : List (List Token)}, List.Forall₂ Scans ls tss →
      tss.flatten = [] → ∀ l' ∈ ls, l'.all isJsonSpace = true := by
    intro ls tss hall hnil
    induction hall with
    | nil => simp
    | @cons x ts ls tss hscan hall ih =>
        obtain ⟨rfl, hrest⟩ := List.append_eq_nil_iff.mp hnil
        exact List.forall_mem_cons.mpr ⟨scans_nil_iff.mp hscan, ih hrest⟩
  have empties : ∀ {ls : List Text}, (∀ l' ∈ ls, l'.all isJsonSpace = true) →
      ∃ tss, List.Forall₂ Scans ls tss ∧ tss.flatten = [] := by
    intro ls hall
    induction ls with
    | nil => exact ⟨[], .nil, rfl⟩
    | cons x ls ih =>
        obtain ⟨tss, htss, hnil⟩ := ih fun l' hl' => hall l' (List.mem_cons_of_mem x hl')
        exact ⟨[] :: tss, .cons (scans_nil_iff.mpr (hall x List.mem_cons_self)) htss, hnil⟩
  rw [scans_plainLines, hlines]
  constructor
  · rintro ⟨tss, hall, hvs⟩
    have htpre := (List.forall₂_take_append _ _ _ hall.flip).flip
    have htrest := (List.forall₂_drop_append _ _ _ hall.flip).flip
    rw [← List.take_append_drop pre.length tss, List.flatten_append] at hvs
    generalize tss.take pre.length = tpre at htpre hvs
    generalize tss.drop pre.length = trest at htrest hvs
    cases htrest with
    | @cons _ ts _ tsuf hl' htsuf =>
        obtain rfl := hl'.unique hl
        rw [List.flatten_cons] at hvs
        have hlength := congrArg List.length hvs
        simp only [List.length_append] at hlength
        have hpre : tpre.flatten = [] := List.length_eq_zero_iff.mp (by omega)
        have hsuf : tsuf.flatten = [] := List.length_eq_zero_iff.mp (by omega)
        intro l' hl'
        rcases List.mem_append.mp hl' with hl' | hl'
        · exact blanks htpre hpre l' hl'
        · exact blanks htsuf hsuf l' hl'
  · intro hall
    obtain ⟨tpre, htpre, hpre⟩ := empties fun l' hl' => hall l' (List.mem_append_left _ hl')
    obtain ⟨tsuf, htsuf, hsuf⟩ := empties fun l' hl' => hall l' (List.mem_append_right _ hl')
    refine ⟨tpre ++ vs :: tsuf, List.rel_append htpre (.cons hl htsuf), ?_⟩
    simp [hpre, hsuf]

end AgentOrch.Json
