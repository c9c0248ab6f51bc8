import AgentOrch.Framework.Occurrences
import AgentOrch.Properties.PlanRoundTrip

/-!
# Plans in front of a task

A rendered plan is a frame: a begin marker, one line of JSON, an end marker.  Put in front of any
text that holds neither marker, it is found again, and what it holds reads back.  The plan itself
never spells a marker; what is carried along with it may, and then nothing is read at all.
-/

namespace AgentOrch.Execution

open Py Json

/-! ## Markers -/

/-- A text that spells neither marker. -/
def Unmarked (t : Text) : Prop := ¬ planBegin <:+: t ∧ ¬ planEnd <:+: t

/-- What the two markers have in common. -/
structure IsPlanMarker (m : Text) : Prop where
  head : m.head? = some 0x3C
  line : (0x0A : CodePoint) ∉ m
  quote : (0x22 : CodePoint) ∉ m
  plain : ∀ d ∈ m, asciiChar d = [d] ∧ d ≠ 0x5C

/-- A character an ASCII writer leaves alone. -/
def staysPlain (d : CodePoint) : Bool := decide (asciiChar d = [d] ∧ d ≠ 0x5C)

lemma isPlanMarker_begin : IsPlanMarker planBegin := by
  have hplain : planBegin.all staysPlain = true := by decide
  exact ⟨by decide, by decide, by decide,
    fun d hd => of_decide_eq_true (List.all_eq_true.mp hplain d hd)⟩

lemma isPlanMarker_end : IsPlanMarker planEnd := by
  have hplain : planEnd.all staysPlain = true := by decide
  exact ⟨by decide, by decide, by decide,
    fun d hd => of_decide_eq_true (List.all_eq_true.mp hplain d hd)⟩

section
variable {m raw tail t : Text}

lemma IsPlanMarker.ne_nil (h : IsPlanMarker m) : m ≠ [] := by
  rintro rfl
  have hhead := h.head
  cases hhead

lemma unmarked_of_isPlain (h : IsPlain t) : Unmarked t :=
  ⟨not_infix_of_plain isPlanMarker_begin.head fun hmem => (h _ hmem).2 rfl,
    not_infix_of_plain isPlanMarker_end.head fun hmem => (h _ hmem).2 rfl⟩

/-! ## Splitting -/

/-- The first line that is the marker ends what stands before it. -/
lemma splitFirst_line (hm : (0x0A : CodePoint) ∉ m) (hraw : ¬ m <:+: raw) :
    splitFirst (0x0A :: m ++ [0x0A]) (raw ++ (0x0A :: m ++ [0x0A]) ++ tail) = some (raw, tail) := by
  induction raw with
  | nil =>
      have hpre : (0x0A :: m ++ [0x0A]).isPrefixOf (0x0A :: m ++ [0x0A] ++ tail) = true :=
        List.isPrefixOf_iff_prefix.mpr (List.prefix_append _ _)
      have hdrop : (0x0A :: m ++ [0x0A] ++ tail).drop (0x0A :: m ++ [0x0A]).length = tail :=
        List.drop_left
      rw [List.nil_append]
      simp only [List.cons_append] at hpre hdrop ⊢
      rw [splitFirst.eq_def]
      simp only [hpre, if_true, hdrop]
  | cons c raw ih =>
      have hnot : (0x0A :: m ++ [0x0A]).isPrefixOf
          (c :: (raw ++ (0x0A :: m ++ [0x0A]) ++ tail)) = false := by
        rw [Bool.eq_false_iff, ne_eq, List.isPrefixOf_iff_prefix]
        intro h
        rw [List.cons_append, List.cons_prefix_cons] at h
        have hpre : m <+: raw ++ 0x0A :: (m ++ [0x0A] ++ tail) := by
          refine (List.prefix_append m [0x0A]).trans ?_
          simpa using h.2
        rw [prefix_separated hm] at hpre
        exact hraw (List.infix_cons hpre.isInfix)
      have hrest := ih fun h => hraw (List.infix_cons h)
      have htext : c :: raw ++ (0x0A :: m ++ [0x0A]) ++ tail =
          c :: (raw ++ (0x0A :: m ++ [0x0A]) ++ tail) := rfl
      rw [htext, splitFirst.eq_def]
      simp only [hnot, Bool.false_eq_true, if_false, hrest, Option.map_some]

lemma closing_eq : closing = 0x0A :: planEnd ++ [0x0A] := rfl

/-- A frame with what follows it. -/
def framed (raw tail : Text) : Text := planBegin ++ "\n" ++ raw ++ closing ++ tail

lemma framed_eq (raw tail : Text) :
    framed raw tail = planBegin ++ 0x0A :: (raw ++ 0x0A :: (planEnd ++ 0x0A :: tail)) := by
  show planBegin ++ [0x0A] ++ raw ++ (0x0A :: planEnd ++ [0x0A]) ++ tail = _
  simp

lemma count_framed (hm : IsPlanMarker m) : count m (framed raw tail) =
    count m planBegin + count m raw + count m planEnd + count m tail := by
  rw [framed_eq, count_separated hm.line hm.ne_nil, count_separated hm.line hm.ne_nil,
    count_separated hm.line hm.ne_nil]
  omega

lemma contains_of_prefix (h : t <+: raw) : contains t raw = true := by
  have hpre := List.isPrefixOf_iff_prefix.mpr h
  unfold contains
  cases raw with
  | nil => rw [splitFirst, if_pos hpre]; rfl
  | cons c raw => rw [splitFirst, if_pos hpre]; rfl

lemma opens_framed (raw tail : Text) : (planBegin ++ "\n" : Text) <+: framed raw tail := by
  unfold framed
  rw [List.append_assoc, List.append_assoc]
  exact List.prefix_append _ _

lemma contains_framed (raw tail : Text) : contains planBegin (framed raw tail) = true :=
  contains_of_prefix ((List.prefix_append _ _).trans (opens_framed raw tail))

lemma drop_framed (raw tail : Text) :
    (framed raw tail).drop (planBegin.length + 1) = raw ++ closing ++ tail := by
  have hlength : planBegin.length + 1 = (planBegin ++ [0x0A]).length := by
    rw [List.length_append]
    rfl
  have hsplit : framed raw tail = (planBegin ++ [0x0A]) ++ (raw ++ closing ++ tail) := by
    show planBegin ++ [0x0A] ++ raw ++ closing ++ tail = _
    simp
  rw [hlength, hsplit, List.drop_left]

lemma splitFirst_framed (hraw : Unmarked raw) :
    (splitFirst closing (raw ++ closing ++ tail)).getD (raw ++ closing ++ tail, []) =
      (raw, tail) := by
  rw [closing_eq, splitFirst_line isPlanMarker_end.line hraw.2]
  rfl

end

section
variable {pf : Platform} {profile : Profile} {raw tail field : Text} {p : ExecutionPlan}
  {items : List (Text × Value)}

/-- A frame is read, whatever follows it. -/
lemma extractPlan_framed (hraw : Unmarked raw) (htail : Unmarked tail)
    (hloads : pf.loads true raw = .ok (.obj items))
    (hkeys : keysOf pf.toRuntime (.obj items) ["plan", "digest"] ["review", "session"]
      "execution frame" = .ok items)
    (hplan : restorePlan pf (getValue "plan" items) profile (getValue "digest" items) = .ok p) :
    extractPlan pf (framed raw tail) profile = .ok (some p) := by
  have hbegins : count planBegin (framed raw tail) = 1 := by
    rw [count_framed isPlanMarker_begin, (count_eq_zero isPlanMarker_begin.ne_nil).mpr hraw.1,
      (count_eq_zero isPlanMarker_begin.ne_nil).mpr htail.1]
    decide
  have hends : count planEnd (framed raw tail) = 1 := by
    rw [count_framed isPlanMarker_end, (count_eq_zero isPlanMarker_end.ne_nil).mpr hraw.2,
      (count_eq_zero isPlanMarker_end.ne_nil).mpr htail.2]
    decide
  have hopens := List.isPrefixOf_iff_prefix.mpr (opens_framed raw tail)
  have hsuffix : (!tail.isEmpty || closing.isSuffixOf (framed raw tail)) = true := by
    cases tail with
    | nil =>
        have hsuffix : closing <:+ framed raw [] := by
          unfold framed
          rw [List.append_nil]
          exact List.suffix_append _ _
        rw [List.isSuffixOf_iff_suffix.mpr hsuffix, Bool.or_true]
    | cons c tail => rfl
  have hframe : loadsFrame pf.toRuntime raw = .ok (.obj items) := by
    rw [loadsFrame, hloads]
  unfold extractPlan
  simp only [contains_framed, hopens, hbegins, hends, Bool.not_true, Bool.false_and, Bool.false_eq_true,
    if_false, ne_eq, not_true_eq_false, decide_false, Bool.or_false, drop_framed,
    splitFirst_framed hraw, hsuffix, require, if_true, hframe, hkeys, hplan, bind, Except.bind,
    pure, Except.pure]

/-- What stands beside the plan is read, too. -/
lemma reviewContext_framed (hraw : Unmarked raw)
    (hloads : pf.loads true raw = .ok (.obj items)) :
    reviewContext pf.toRuntime (framed raw tail) field = .ok (getValue field items) := by
  have hopens := List.isPrefixOf_iff_prefix.mpr (opens_framed raw tail)
  unfold reviewContext
  simp only [hopens, if_true, drop_framed, splitFirst_framed hraw, hloads, bind, Except.bind, pure,
    Except.pure]

end

/-! ## What is carried along -/

/-- A value that is written and reads back: its strings hold no halves of a pair side by side, its
numbers are written, and it has no more containers in one another than there is room for. -/
structure Carried (rt : Runtime) (room : ℕ) (v : Value) : Prop where
  keyed : v.wellKeyed = true
  strings : ∀ s ∈ v.strings, PairFree s
  renders : ∀ x ∈ v.floats, (Layout.plain rt.floatRepr).Renders x
  plain : ∀ x ∈ v.floats, (0x3C : CodePoint) ∉ rt.floatRepr x
  shortInts : v.shortInts = true
  depth : v.depth ≤ room

/-- No string of the value spells a marker. -/
def AllUnmarked (v : Value) : Prop := ∀ s ∈ v.strings, Unmarked s

section
variable {rt : Runtime} {room : ℕ} {v : Value} {items : List (Text × Value)}

lemma pairFree_of_isPlain {t : Text} (h : IsPlain t) : PairFree t :=
  pairFree_of_ascii fun c hc => (h c hc).1

lemma carried_of_simple {n : ℕ} (h : Simple IsPlain n v) (hn : n ≤ room) :
    Carried rt room v := by
  have hfloats := floats_of_floatFree h.floatFree
  refine ⟨h.keyed, fun s hs => pairFree_of_isPlain (h.strings s hs), ?_, ?_, h.shortInts,
    h.depth.trans hn⟩
  · rw [hfloats]
    exact fun x hx => absurd hx List.not_mem_nil
  · rw [hfloats]
    exact fun x hx => absurd hx List.not_mem_nil

lemma carried_obj (hnodup : (dictKeys items).Nodup) (hkeys : ∀ k ∈ dictKeys items, IsPlain k)
    (h : ∀ p ∈ items, Carried rt room p.2) : Carried rt (room + 1) (.obj items) := by
  constructor
  · simp only [Value.wellKeyed, Bool.and_eq_true, decide_eq_true_eq]
    exact ⟨hnodup, wellKeyedPairs_iff.mpr fun p hp => (h p hp).keyed⟩
  · intro s hs
    obtain ⟨p, hp, rfl | hs⟩ := mem_stringsPairs.mp hs
    · exact pairFree_of_isPlain (hkeys _ (List.mem_map.mpr ⟨p, hp, rfl⟩))
    · exact (h p hp).strings s hs
  · intro x hx
    obtain ⟨p, hp, hx⟩ := mem_floatsPairs.mp hx
    exact (h p hp).renders x hx
  · intro x hx
    obtain ⟨p, hp, hx⟩ := mem_floatsPairs.mp hx
    exact (h p hp).plain x hx
  · exact shortIntsPairs_iff.mpr fun p hp => (h p hp).shortInts
  · exact Nat.succ_le_succ (depthPairs_le fun p hp => (h p hp).depth)

lemma allUnmarked_obj (hkeys : ∀ k ∈ dictKeys items, IsPlain k) :
    AllUnmarked (.obj items) ↔ ∀ p ∈ items, AllUnmarked p.2 := by
  constructor
  · exact fun h p hp s hs => h s (mem_stringsPairs.mpr ⟨p, hp, .inr hs⟩)
  · intro h s hs
    obtain ⟨p, hp, rfl | hs⟩ := mem_stringsPairs.mp hs
    · exact unmarked_of_isPlain (hkeys _ (List.mem_map.mpr ⟨p, hp, rfl⟩))
    · exact h p hp s hs

/-- The line of JSON a value is written as. -/
def plainText (rt : Runtime) (v : Value) : Text := v.sortKeys.laid (.plain rt.floatRepr) 0

lemma Carried.dumpsPlain (h : Carried rt room v) (hroom : room ≤ rt.dumpsDepth) :
    dumpsPlain rt v = .ok (plainText rt v) := by
  have hrefusal : v.sortKeys.lenientRefusal rt.dumpsDepth = none := by
    refine lenientRefusal_eq_none _ ?_ (shortInts_sortKeys v h.shortInts)
    rw [depth_sortKeys]
    exact h.depth.trans hroom
  rw [Execution.dumpsPlain, hrefusal]
  rfl

lemma Carried.loads (h : Carried rt room v) (hroom : room ≤ rt.loadsDepth) :
    rt.loads true (plainText rt v) = .ok v.sortKeys := by
  have hread := @loads_laid _ ⟨rt.loadsDepth, true⟩ (Layout.plain_spaced rt.floatRepr) v.sortKeys 0
    (fun s hs => Layout.plain_spells rt.floatRepr (h.strings s ((mem_strings_sortKeys v).mp hs)))
    (fun x hx => h.renders x (floats_sortKeys v hx)) (shortInts_sortKeys v h.shortInts)
    (wellKeyed_sortKeys v h.keyed)
  rw [depth_sortKeys, if_pos (h.depth.trans hroom)] at hread
  rw [Runtime.loads, plainText, hread]

/-- A marker stands in what is written where it stands in a string. -/
lemma Carried.unmarked_iff (h : Carried rt room v) :
    Unmarked (plainText rt v) ↔ AllUnmarked v := by
  have hforeign : (Layout.plain rt.floatRepr).Foreign 0x3C := ⟨by decide, by decide⟩
  have hplain : ∀ x ∈ v.sortKeys.floats,
      (0x3C : CodePoint) ∉ (Layout.plain rt.floatRepr).floatText x :=
    fun x hx => h.plain x (floats_sortKeys v hx)
  have hoccurs : ∀ m, IsPlanMarker m → (m <:+: plainText rt v ↔ ∃ s ∈ v.strings, m <:+: s) := by
    intro m hm
    have hbody := infix_laid (Layout.plain_spaced rt.floatRepr) hm.quote hm.head hforeign
      v.sortKeys 0 [] hplain
    have hnil : ¬ m <:+: [] := fun h => hm.ne_nil (List.infix_nil.mp h)
    have hspell : ∀ s, m <:+: (Layout.plain rt.floatRepr).spell s ↔ m <:+: s :=
      fun s => infix_spelled spelling_asciiChar hm.plain hm.head (by decide)
    rw [List.append_nil] at hbody
    rw [plainText, hbody, or_iff_left hnil]
    simp only [mem_strings_sortKeys, hspell]
  rw [Unmarked, hoccurs planBegin isPlanMarker_begin, hoccurs planEnd isPlanMarker_end]
  push Not
  constructor
  · exact fun h s hs => ⟨h.1 s hs, h.2 s hs⟩
  · exact fun h => ⟨fun s hs => (h s hs).1, fun s hs => (h s hs).2⟩

end

/-! ## Rendering -/

section
variable {pf : Platform} {profile : Profile} {p q : ExecutionPlan} {d raw tail : Text} {room : ℕ}
  {review session : Option Value}

/-- The items of a frame. -/
def frameItems (p : ExecutionPlan) (d : Text) (review session : Option Value) :
    List (Text × Value) :=
  [(("plan" : Text), .obj p.toDict), ("digest", .str d)] ++
    (review.map fun v => (("review" : Text), v)).toList ++
    (session.map fun v => (("session" : Text), v)).toList

lemma frameOf_eq : frameOf p d review session = .obj (frameItems p d review session) := rfl

lemma forall_frameItems {P : Text × Value → Prop} :
    (∀ item ∈ frameItems p d review session, P item) ↔
      P ("plan", .obj p.toDict) ∧ P ("digest", .str d) ∧ (∀ v ∈ review, P ("review", v)) ∧
        ∀ v ∈ session, P ("session", v) := by
  cases review <;> cases session <;> simp [frameItems]

lemma dictKeys_frameItems : (dictKeys (frameItems p d review session)).Nodup ∧
    (∀ k ∈ dictKeys (frameItems p d review session), IsPlain k) ∧
    (∀ k ∈ (["plan", "digest"] : List Text), k ∈ dictKeys (frameItems p d review session)) ∧
    ∀ k ∈ dictKeys (frameItems p d review session),
      k ∈ (["plan", "digest"] : List Text) ∨ k ∈ (["review", "session"] : List Text) := by
  have hkeys : dictKeys (frameItems p d review session) = ["plan", "digest"] ++
      (if review.isSome then ["review"] else []) ++ (if session.isSome then ["session"] else []) := by
    cases review <;> cases session <;> rfl
  rw [hkeys]
  cases review.isSome <;> cases session.isSome <;> decide

lemma getValue_frameItems_review :
    getValue "review" (frameItems p d review session) = review.getD .null := by
  cases review <;> cases session <;> rfl

lemma getValue_frameItems_session :
    getValue "session" (frameItems p d review session) = session.getD .null := by
  cases review <;> cases session <;> rfl

/-- A text that is read has one frame. -/
lemma unmarked_of_extractPlan (h : extractPlan pf (framed raw tail) profile = .ok (some q)) :
    Unmarked raw ∧ Unmarked tail := by
  have hone : ∀ m, IsPlanMarker m → count m planBegin + count m planEnd = 1 →
      count m (framed raw tail) = 1 → count m raw = 0 ∧ count m tail = 0 := by
    intro m hm hboth hcount
    rw [count_framed hm] at hcount
    omega
  have hcounts : ¬ (!(planBegin ++ "\n" : Text).isPrefixOf (framed raw tail) ||
      decide (count planBegin (framed raw tail) ≠ 1) ||
      decide (count planEnd (framed raw tail) ≠ 1)) = true := by
    intro hrefused
    rw [extractPlan, contains_framed, if_neg (by simp), if_pos hrefused] at h
    cases h
  simp only [Bool.or_eq_true, not_or, decide_eq_true_eq, ne_eq, not_not] at hcounts
  obtain ⟨hbegin, hbegin'⟩ := hone _ isPlanMarker_begin (by decide) hcounts.1.2
  obtain ⟨hend, hend'⟩ := hone _ isPlanMarker_end (by decide) hcounts.2
  exact ⟨⟨(count_eq_zero isPlanMarker_begin.ne_nil).mp hbegin,
    (count_eq_zero isPlanMarker_end.ne_nil).mp hend⟩,
    (count_eq_zero isPlanMarker_begin.ne_nil).mp hbegin',
    (count_eq_zero isPlanMarker_end.ne_nil).mp hend'⟩

/-- A plan is rendered into a frame that reads back exactly when neither what it carries nor what
follows it spells a marker. -/
lemma renderPlan_framed (hresolved : Resolved profile p) (hprofile : profile.WellFormed)
    (hd : p.digest pf = .ok d) (hhex : isHexDigest d = true) (hdumps : room + 1 ≤ pf.dumpsDepth)
    (hloads : room + 1 ≤ pf.loadsDepth) (hroom : 3 ≤ room)
    (hreview : ∀ v ∈ review, Carried pf.toRuntime room v)
    (hsession : ∀ v ∈ session, Carried pf.toRuntime room v) :
    ∃ raw, renderPlan pf p review session = .ok (framed raw []) ∧
      (Unmarked raw ↔ (∀ v ∈ review, AllUnmarked v) ∧ ∀ v ∈ session, AllUnmarked v) ∧
      (Unmarked raw → ∀ tail, Unmarked tail →
        extractPlan pf (framed raw tail) profile = .ok (some p.sorted) ∧
        reviewContext pf.toRuntime (framed raw tail) "review" =
          .ok ((review.map Value.sortKeys).getD .null) ∧
        reviewContext pf.toRuntime (framed raw tail) "session" =
          .ok ((session.map Value.sortKeys).getD .null)) := by
  obtain ⟨hnodup, hplain, hrequired, honly⟩ :=
    @dictKeys_frameItems p d review session
  have hsimple := hresolved.simple hprofile
  have hdigest : Simple IsPlain 0 (.str d) := simple_str (isPlain_of_isHexDigest hhex)
  have hcarried : Carried pf.toRuntime (room + 1) (frameOf p d review session) := by
    refine carried_obj hnodup hplain (forall_frameItems.mpr ⟨?_, ?_, hreview, hsession⟩)
    · exact carried_of_simple hsimple hroom
    · exact carried_of_simple hdigest (Nat.zero_le _)
  refine ⟨plainText pf.toRuntime (frameOf p d review session), ?_, ?_, ?_⟩
  · rw [renderPlan, hd, returned_bind, hcarried.dumpsPlain hdumps, returned_bind]
    show Except.ok (planBegin ++ [0x0A] ++ _ ++ [0x0A] ++ planEnd ++ [0x0A]) =
      Except.ok (planBegin ++ [0x0A] ++ _ ++ (0x0A :: planEnd ++ [0x0A]) ++ [])
    simp
  · rw [hcarried.unmarked_iff, frameOf_eq, allUnmarked_obj hplain, forall_frameItems]
    have hplan : AllUnmarked (.obj p.toDict) :=
      fun s hs => unmarked_of_isPlain (hsimple.strings s hs)
    have hdigest' : AllUnmarked (.str d) := fun s hs => unmarked_of_isPlain (hdigest.strings s hs)
    simp only [hplan, hdigest', true_and]
  · intro hraw tail htail
    have hread := hcarried.loads hloads
    rw [frameOf_eq, sortKeys_obj] at hread
    have hvalue : ∀ key, getValue key (sortedItems (frameItems p d review session)) =
        (getValue key (frameItems p d review session)).sortKeys :=
      fun key => getValue_sortedItems hnodup key
    have hnull : ∀ o : Option Value, (o.getD .null).sortKeys =
        (o.map Value.sortKeys).getD .null := by
      intro o
      cases o <;> rfl
    refine ⟨extractPlan_framed hraw htail hread ?_ ?_, ?_, ?_⟩
    · refine keysOf_eq_ok.mpr ⟨rfl, ?_, ?_⟩
      · exact fun k hk => mem_dictKeys_sortedItems.mpr (hrequired k hk)
      · exact fun k hk => honly k (mem_dictKeys_sortedItems.mp hk)
    · rw [hvalue, hvalue]
      have hplan : (getValue "plan" (frameItems p d review session)).sortKeys =
          .obj (sortedItems p.toDict) := sortKeys_obj p.toDict
      have hseal : (getValue "digest" (frameItems p d review session)).sortKeys = .str d := rfl
      rw [hplan, hseal]
      refine (stores_sortedItems hresolved).restorePlan hresolved.sorted ?_ ?_
      · rw [← sortKeys_obj]
        exact hsimple.sortKeys.keyed
      · rw [digest_sorted, hd]
    · rw [reviewContext_framed hraw hread, hvalue, getValue_frameItems_review, hnull]
    · rw [reviewContext_framed hraw hread, hvalue, getValue_frameItems_session, hnull]

end

/-! ## The round trip -/

section
variable {pf : Platform} {profile : Profile} {data request : Value} {defaults : Defaults}
  {p : ExecutionPlan}

/-- A plan that a request resolved to has a digest.  It is restored under it from what it writes,
laid out in any way and with its keys in any of the two orders.  Rendered together with a review and
a session in front of a task, it is extracted exactly when neither these nor the task spell a
marker, and then so are the review and the session. -/
theorem plan_roundTrip {room : ℕ} (hprofile : validateProfile data = .ok profile)
    (hkeyed : request.wellKeyed = true)
    (hresolve : resolveRequest pf request profile defaults = .ok p)
    (hdumps : room + 1 ≤ pf.dumpsDepth) (hloads : room + 1 ≤ pf.loadsDepth) (hroom : 3 ≤ room) :
    ∃ d, p.digest pf = .ok d ∧ p.sorted.digest pf = .ok d ∧
      (∀ L : Layout, L.Spaced → (∀ s, IsPlain s → L.Spells s) →
        (pf.loads true ((Value.obj p.toDict).laid L 0) >>= fun v =>
          restorePlan pf v profile (.str d)) = .ok p ∧
        (pf.loads true ((Value.obj p.toDict).sortKeys.laid L 0) >>= fun v =>
          restorePlan pf v profile (.str d)) = .ok p.sorted) ∧
      ∀ review session : Option Value, (∀ v ∈ review, Carried pf.toRuntime room v) →
        (∀ v ∈ session, Carried pf.toRuntime room v) → ∃ text,
        renderPlan pf p review session = .ok text ∧ ∀ tail,
          (extractPlan pf (text ++ tail) profile = .ok (some p.sorted) ↔
            (∀ v ∈ review, AllUnmarked v) ∧ (∀ v ∈ session, AllUnmarked v) ∧ Unmarked tail) ∧
          (extractPlan pf (text ++ tail) profile = .ok (some p.sorted) →
            reviewContext pf.toRuntime (text ++ tail) "review" =
              .ok ((review.map Value.sortKeys).getD .null) ∧
            reviewContext pf.toRuntime (text ++ tail) "session" =
              .ok ((session.map Value.sortKeys).getD .null)) := by
  have hwell := validateProfile_wellFormed hprofile
  have hresolved := resolved_of_resolveRequest hkeyed hresolve
  have hsimple := hresolved.simple hwell
  have hwrite : 3 ≤ pf.dumpsDepth := by omega
  have hread : 3 ≤ pf.loadsDepth := by omega
  obtain ⟨d, hd, hhex⟩ := hresolved.digest hwell hwrite
  have hsorted : p.sorted.digest pf = .ok d := by rw [digest_sorted, hd]
  refine ⟨d, hd, hsorted, ?_, ?_⟩
  · intro L hL hspells
    have hplan := @Simple.loads _ _ _ ⟨pf.loadsDepth, true⟩ L hsimple hL hspells hread
    have hplan' := @Simple.loads _ _ _ ⟨pf.loadsDepth, true⟩ L hsimple.sortKeys hL hspells hread
    have hkeyed' := hsimple.sortKeys.keyed
    rw [Runtime.loads, Runtime.loads, hplan, hplan']
    rw [sortKeys_obj] at hkeyed' ⊢
    exact ⟨(stores_toDict hresolved).restorePlan hresolved hsimple.keyed hd,
      (stores_sortedItems hresolved).restorePlan hresolved.sorted hkeyed' hsorted⟩
  · intro review session hreview hsession
    obtain ⟨raw, htext, hraw, hframes⟩ := renderPlan_framed hresolved hwell hd hhex hdumps hloads
      hroom hreview hsession
    have happend : ∀ tail, framed raw [] ++ tail = framed raw tail := by
      intro tail
      unfold framed
      simp
    refine ⟨_, htext, fun tail => ?_⟩
    rw [happend]
    refine ⟨⟨?_, ?_⟩, ?_⟩
    · intro h
      obtain ⟨hframe, htail⟩ := unmarked_of_extractPlan h
      obtain ⟨hreviews, hsessions⟩ := hraw.mp hframe
      exact ⟨hreviews, hsessions, htail⟩
    · rintro ⟨hreviews, hsessions, htail⟩
      exact (hframes (hraw.mpr ⟨hreviews, hsessions⟩) tail htail).1
    · intro h
      obtain ⟨hframe, htail⟩ := unmarked_of_extractPlan h
      exact (hframes hframe tail htail).2

end

theorem plan_roundTrip_draft : ∃ d, draftPlan.digest zeroPlatform = .ok d ∧
    ∃ text, renderPlan zeroPlatform draftPlan none none = .ok text ∧
      extractPlan zeroPlatform (text ++ "Write the draft.") draftReviewProfile =
        .ok (some draftPlan.sorted) := by
  obtain ⟨d, hd, -, -, hframes⟩ := @plan_roundTrip zeroPlatform _ _ _ _ _ 3
    validateProfile_draftReview (by decide) resolveRequest_draft (by decide)
    (by decide) (by decide)
  have hnone : ∀ P : Value → Prop, ∀ v ∈ (none : Option Value), P v := by
    rintro P v ⟨⟩
  obtain ⟨text, htext, hread⟩ := hframes none none (hnone _) (hnone _)
  have htail : IsPlain "Write the draft." := by decide
  exact ⟨d, hd, text, htext,
    (hread _).1.mpr ⟨hnone _, hnone _, unmarked_of_isPlain htail⟩⟩

end AgentOrch.Execution
