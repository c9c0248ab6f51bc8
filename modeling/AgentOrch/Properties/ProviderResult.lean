import AgentOrch.Construction.Review
import AgentOrch.Framework.JsonOutline
import Mathlib.Data.List.Perm.Basic

/-!
# The one result object of a provider's output

A provider writes its result on one line, and diagnostic lines may stand around it.  `providerJson`
reads the output as a whole first, and goes over `splitlines` when that is no JSON.  The two agree
with the lines of the output up to three things: a raw U+0085, U+2028 or U+2029 inside the result
cuts it in two, the same characters may cut a result out of a diagnostic line, and diagnostic lines
may make up a larger JSON text with the result.  `providerJson_recovers_iff` says exactly when the
output's one result object is returned and two are refused.
-/

namespace AgentOrch

open Py Json

/-! ## The result objects of an output -/

/-- The result object a text is; there is room for a container at every character. -/
def nativeResult (t : Text) : Option (List (Text × Value)) :=
  match Json.loads ⟨t.length, true⟩ t with
  | .ok (.obj payload) => if textIs "type" "result" payload then some payload else none
  | _ => none

/-- The result objects among the lines of an output. -/
def nativeResults (output : Text) : List (List (Text × Value)) :=
  (plainLines output).filterMap nativeResult

/-- The one result object of an output is returned, and two are refused. -/
structure Recovers (rt : Runtime) (output : Text) : Prop where
  recovered : ∀ payload, nativeResults output = [payload] → providerJson rt output = .ok payload
  unrivalled : ∀ payload, providerJson rt output = .ok payload → (nativeResults output).length ≤ 1

/-- The result objects on lines without a Unicode line boundary. -/
def unbroken (output : Text) : List (List (Text × Value)) :=
  (plainLines output).flatMap fun l => if OneLine l then (nativeResult l).toList else []

/-- The result objects that Unicode line boundaries cut out of the other lines. -/
def strays (output : Text) : List (List (Text × Value)) :=
  (plainLines output).flatMap fun l =>
    if (nativeResult l).isSome then [] else (splitlines l).filterMap nativeResult

/-- The output is no JSON, and no piece of it is nested too deeply to find that out. -/
structure Searched (rt : Runtime) (output : Text) : Prop where
  refused : ∃ e, rt.loads true output = .error e ∧ e.isValueError = true
  shallow : ∀ l ∈ splitlines output, rt.loads true l ≠ .error .recursionError

/-- Where one line is a result object, the others are blank, or it is the one object a search over
the pieces finds.  Where several are, the output is no result object as a whole and such a search
does not find exactly one. -/
structure Undisturbed (rt : Runtime) (output : Text) : Prop where
  single : ∀ payload, nativeResults output = [payload] →
    ((Value.obj payload).depth ≤ rt.loadsDepth ∧
      ∀ l ∈ plainLines output, nativeResult l = none → l.all isJsonSpace = true) ∨
    (Searched rt output ∧ unbroken output ++ strays output = [payload])
  several : 2 ≤ (nativeResults output).length →
    (∀ payload, nativeResult output = some payload →
      rt.loadsDepth < (Value.obj payload).depth) ∧
    (Searched rt output → (unbroken output ++ strays output).length ≠ 1)

/-! ## Reading one text -/

section
variable {rt : Runtime} {t output : Text} {payload : List (Text × Value)}

lemma nativeResult_eq_some : nativeResult t = some payload ↔
    Json.loads ⟨t.length, true⟩ t = .ok (.obj payload) ∧ textIs "type" "result" payload = true := by
  rw [nativeResult]
  split
  · next items hloads =>
    rw [hloads]
    constructor
    · intro h
      split_ifs at h with htype
      obtain rfl := Option.some.inj h
      exact ⟨rfl, htype⟩
    · rintro ⟨h, htype⟩
      simp only [Except.ok.injEq, Value.obj.injEq] at h
      rw [h, if_pos htype]
  · next hother =>
    constructor
    · intro h
      cases h
    · rintro ⟨h, -⟩
      exact absurd h (hother payload)

lemma loads_ok_iff {u : Bool} {v : Value} :
    rt.loads u t = .ok v ↔ Json.loads ⟨rt.loadsDepth, u⟩ t = .ok v := by
  rw [Runtime.loads]
  split <;> simp_all

lemma loads_recursion_iff {u : Bool} : rt.loads u t = .error .recursionError ↔
    Json.loads ⟨rt.loadsDepth, u⟩ t = .error .recursion := by
  rw [Runtime.loads]
  split <;> simp_all

/-- Apart from the nesting, every refusal is a `ValueError`. -/
lemma isValueError_of_loads {u : Bool} {e : Exc} (h : rt.loads u t = .error e)
    (hdeep : e ≠ .recursionError) : e.isValueError = true := by
  rw [Runtime.loads] at h
  split at h <;> cases h
  all_goals first | rfl | exact absurd rfl hdeep

/-- The interpreter reads a result object that is not nested too deeply. -/
lemma loads_result_iff : rt.loads true t = .ok (.obj payload) ∧
    textIs "type" "result" payload = true ↔
      nativeResult t = some payload ∧ (Value.obj payload).depth ≤ rt.loadsDepth := by
  rw [loads_ok_iff, loads_length_iff, nativeResult_eq_some]
  tauto

lemma loads_of_nativeResult (h : nativeResult t = some payload)
    (hdeep : rt.loads true t ≠ .error .recursionError) : rt.loads true t = .ok (.obj payload) := by
  rw [ne_eq, loads_recursion_iff] at hdeep
  rw [loads_ok_iff]
  exact (loads_or_recursion (nativeResult_eq_some.mp h).1).resolve_right hdeep

lemma nativeResult_nil : nativeResult [] = none := rfl

/-- What the interpreter reads is a result object or none. -/
lemma nativeResult_of_loads {v : Value} (h : rt.loads true t = .ok v) : nativeResult t =
    match v with
    | .obj items => if textIs "type" "result" items then some items else none
    | _ => none := by
  rw [nativeResult, (loads_length_iff.mp (loads_ok_iff.mp h)).1]
  cases v <;> rfl

lemma nativeResult_of_error {e : Exc} (h : rt.loads true t = .error e)
    (hdeep : e ≠ .recursionError) : nativeResult t = none := by
  cases hresult : nativeResult t with
  | none => rfl
  | some payload =>
      have hok := @loads_of_nativeResult rt _ _ hresult (by rw [h]; simpa using hdeep)
      rw [h] at hok
      cases hok

/-! ## Searching the pieces -/

/-- The search collects the result objects, unless a piece is nested too deeply. -/
lemma resultLines_eq_ok {lines : List Text} : ∀ {items : List (List (Text × Value))},
    resultLines rt lines = .ok items ↔ (∀ l ∈ lines, rt.loads true l ≠ .error .recursionError) ∧
      items = lines.filterMap nativeResult := by
  induction lines with
  | nil => simp [resultLines, eq_comm]
  | cons l lines ih =>
      intro items
      rw [List.forall_mem_cons, List.filterMap_cons, resultLines]
      cases hread : rt.loads true l with
      | error e =>
          by_cases hdeep : e = .recursionError
          · subst hdeep
            simp [Exc.isValueError]
          · simp [isValueError_of_loads hread hdeep, nativeResult_of_error hread hdeep, hdeep, ih]
      | ok v =>
          rw [nativeResult_of_loads hread]
          cases v with
          | obj item =>
              simp only [bind_eq_ok, ih]
              split_ifs <;> simp [pure, Except.pure, eq_comm]
          | _ => simp [ih]

/-- What is returned is the output as a whole, or the one result object among its pieces. -/
theorem providerJson_eq_ok : providerJson rt output = .ok payload ↔
    (nativeResult output = some payload ∧ (Value.obj payload).depth ≤ rt.loadsDepth) ∨
      (Searched rt output ∧ (splitlines output).filterMap nativeResult = [payload]) := by
  rw [← loads_result_iff, providerJson]
  cases hread : rt.loads true output with
  | ok v =>
      have hnot : ¬ Searched rt output := by
        rintro ⟨⟨e, he, -⟩, -⟩
        rw [hread] at he
        cases he
      cases v with
      | obj item => 
          by_cases htype : textIs "type" "result" item = true
          · simp only [htype, if_true, hnot, false_and, or_false, Except.ok.injEq, Value.obj.injEq]
            constructor
            · rintro rfl
              exact ⟨rfl, htype⟩
            · exact And.left
          · simp only [htype, hnot, false_and, or_false, Except.ok.injEq, Value.obj.injEq]
            constructor
            · intro h
              cases h
            · rintro ⟨rfl, h⟩
              exact absurd h htype
      | _ => simp [hnot]
  | error e =>
      have hfirst : ¬ ((Except.error e : Except Exc Value) = .ok (.obj payload) ∧
          textIs "type" "result" payload = true) := by
        rintro ⟨h, -⟩
        cases h
      rw [or_iff_right hfirst]
      by_cases hvalue : e.isValueError = true
      · have hsearched : Searched rt output ↔
            ∀ l ∈ splitlines output, rt.loads true l ≠ .error .recursionError :=
          ⟨Searched.shallow, fun h => ⟨⟨e, hread, hvalue⟩, h⟩⟩
        simp only [hvalue, if_true, bind_eq_ok, resultLines_eq_ok, hsearched]
        constructor
        · rintro ⟨items, ⟨hshallow, rfl⟩, h⟩
          split at h
          · next one hone =>
            obtain rfl := Except.ok.inj h
            exact ⟨hshallow, hone⟩
          · cases h
        · rintro ⟨hshallow, hone⟩
          exact ⟨_, ⟨hshallow, rfl⟩, by rw [hone]; rfl⟩
      · have hnot : ¬ Searched rt output := by
          rintro ⟨⟨e', he, hvalue'⟩, -⟩
          rw [hread, Except.error.injEq] at he
          exact hvalue (he ▸ hvalue')
        simp [hvalue, hnot]

/-! ## The pieces of a line -/

lemma mem_dictKeys_of_textIs {key value : Text} {items : List (Text × Value)}
    (h : textIs key value items = true) : key ∈ dictKeys items := by
  rw [textIs, decide_eq_true_eq, textAt] at h
  cases hget : dictGet key items with
  | none => simp [hget] at h
  | some v => exact List.mem_map.mpr ⟨(key, v), mem_of_dictGet hget, rfl⟩

/-- No piece of a result object that a Unicode line boundary cuts is a result object. -/
lemma nativeResult_of_piece {l piece : Text} (hfree : LineFree l) (hlines : ¬ OneLine l)
    (hl : nativeResult l = some payload) (hpiece : piece ∈ splitlines l) :
    nativeResult piece = none := by
  cases hresult : nativeResult piece with
  | none => rfl
  | some items =>
      obtain ⟨hread, htype⟩ := nativeResult_eq_some.mp hresult
      have hbody := scans_of_loads rfl (nativeResult_eq_some.mp hl).1
      have hkey : Token.str "type" ∈ (Value.obj items).tokens :=
        str_mem_tokens (mem_dictKeys_of_textIs htype)
      have hbare := Scans.bare_of_piece hbody hfree hlines hpiece (scans_of_loads rfl hread) hkey
      -- a `p` is not bare
      have hno : (0x70 : CodePoint) ∉ bare := by decide
      exact absurd (hbare (by decide)) hno

/-- The pieces of a line give its own result object, or those cut out of it. -/
lemma filterMap_pieces {l : Text} (hfree : LineFree l) :
    (splitlines l).filterMap nativeResult =
      (if OneLine l then (nativeResult l).toList else []) ++
        if (nativeResult l).isSome then [] else (splitlines l).filterMap nativeResult := by
  cases hl : nativeResult l with
  | none => simp
  | some payload =>
      by_cases hone : OneLine l
      · have hne : l ≠ [] := by
          rintro rfl
          rw [nativeResult_nil] at hl
          cases hl
        simp [splitlines_of_oneLine hone hne, hone, hl]
      · rw [if_neg hone, Option.isSome_some, if_pos rfl, List.append_nil,
          List.filterMap_eq_nil_iff]
        exact fun piece hpiece => nativeResult_of_piece hfree hone hl hpiece

/-- A search over the pieces finds the unbroken results and the strays. -/
theorem pieces_perm (output : Text) : (unbroken output ++ strays output).Perm
    ((splitlines output).filterMap nativeResult) := by
  have hpieces : (splitlines output).filterMap nativeResult =
      (plainLines output).flatMap fun l =>
        (if OneLine l then (nativeResult l).toList else []) ++
          if (nativeResult l).isSome then [] else (splitlines l).filterMap nativeResult := by
    rw [filterMap_splitlines nativeResult_nil]
    refine List.flatMap_congr fun l hl => ?_
    exact filterMap_pieces (lineFree_of_mem_plainLines hl)
  rw [hpieces]
  exact List.flatMap_append_perm _ _ _

/-! ## The output as a whole -/

/-- With one line a result object, the output as a whole is that object when the rest is blank. -/
lemma nativeResult_whole (hresults : nativeResults output = [payload]) :
    nativeResult output = some payload ↔
      ∀ l ∈ plainLines output, nativeResult l = none → l.all isJsonSpace = true := by
  obtain ⟨pre, l, suf, hlines, hpre, hl, hsuf⟩ := List.filterMap_eq_cons_iff.mp hresults
  obtain ⟨hread, htype⟩ := nativeResult_eq_some.mp hl
  have hscan := scans_of_line hlines (scans_of_loads rfl hread)
  have hothers : ∀ l' ∈ pre ++ suf, nativeResult l' = none := by
    intro l' hl'
    rcases List.mem_append.mp hl' with hl' | hl'
    · exact hpre l' hl'
    · exact List.filterMap_eq_nil_iff.mp hsuf l' hl'
  constructor
  · intro hwhole l' hl' hnone
    rw [hlines, List.mem_append, List.mem_cons] at hl'
    have hwhole' := scans_of_loads rfl (nativeResult_eq_some.mp hwhole).1
    rcases hl' with hl' | rfl | hl'
    · exact hscan.mp hwhole' l' (List.mem_append_left _ hl')
    · rw [hl] at hnone
      cases hnone
    · exact hscan.mp hwhole' l' (List.mem_append_right _ hl')
  · intro hblank
    have hwhole : Scans output (Value.obj payload).tokens := by
      refine hscan.mpr fun l' hl' => hblank l' ?_ (hothers l' hl')
      rw [hlines]
      exact List.mem_append.mpr ((List.mem_append.mp hl').imp_right (List.mem_cons_of_mem l))
    have hdepth : (Value.obj payload).depth ≤ output.length :=
      (depth_le_tokens _).trans hwhole.length_le
    refine nativeResult_eq_some.mpr ⟨?_, htype⟩
    rw [loads_of_scans ⟨output.length, true⟩ hwhole (loads_wellKeyed hread), if_pos hdepth]

/-- The output's one result object is returned, and two are refused, in exactly these outputs. -/
theorem providerJson_recovers_iff (rt : Runtime) (output : Text) :
    Recovers rt output ↔ Undisturbed rt output := by
  have hperm := pieces_perm output
  constructor
  · rintro ⟨hrecovered, hunrivalled⟩
    refine ⟨fun payload hone => ?_,
      fun htwo => ⟨fun payload hwhole => ?_, fun hsearched hlength => ?_⟩⟩
    · rcases providerJson_eq_ok.mp (hrecovered payload hone) with ⟨hwhole, hdepth⟩ | ⟨hs, hpieces⟩
      · exact .inl ⟨hdepth, (nativeResult_whole hone).mp hwhole⟩
      · rw [hpieces] at hperm
        exact .inr ⟨hs, List.perm_singleton.mp hperm⟩
    · by_contra hdepth
      have hle := hunrivalled payload (providerJson_eq_ok.mpr (.inl ⟨hwhole, not_lt.mp hdepth⟩))
      omega
    · rw [hperm.length_eq] at hlength
      obtain ⟨payload, hpieces⟩ := List.length_eq_one_iff.mp hlength
      have hle := hunrivalled payload (providerJson_eq_ok.mpr (.inr ⟨hsearched, hpieces⟩))
      omega
  · rintro ⟨hsingle, hseveral⟩
    refine ⟨fun payload hone => providerJson_eq_ok.mpr ?_, fun payload hreturned => ?_⟩
    · rcases hsingle payload hone with ⟨hdepth, hblank⟩ | ⟨hs, hpieces⟩
      · exact .inl ⟨(nativeResult_whole hone).mpr hblank, hdepth⟩
      · rw [hpieces] at hperm
        exact .inr ⟨hs, List.perm_singleton.mp hperm.symm⟩
    · by_contra hmany
      obtain ⟨hwhole, hpieces⟩ := hseveral (by omega)
      rcases providerJson_eq_ok.mp hreturned with ⟨hresult, hdepth⟩ | ⟨hs, hone⟩
      · exact absurd hdepth (not_le.mpr (hwhole payload hresult))
      · apply hpieces hs
        rw [hperm.length_eq, hone]
        rfl

/-- A raw U+2028 in the result, with a diagnostic line before it, loses the result. -/
theorem not_recovers :
    ¬ Recovers .standard "warning\n\x7b\"type\":\"result\",\"result\":\"a\u2028b\"\x7d" := by
  intro h
  have hone : (nativeResults
      "warning\n\x7b\"type\":\"result\",\"result\":\"a\u2028b\"\x7d").length = 1 := by
    decide
  obtain ⟨payload, hpayload⟩ := List.length_eq_one_iff.mp hone
  have hlost : (providerJson .standard
      "warning\n\x7b\"type\":\"result\",\"result\":\"a\u2028b\"\x7d").isOk = false := by
    decide
  rw [h.recovered payload hpayload] at hlost
  cases hlost

end

end AgentOrch
