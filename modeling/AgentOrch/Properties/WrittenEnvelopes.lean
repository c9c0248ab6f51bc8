import AgentOrch.Properties.AcceptedReplies

/-!
# Written envelopes

An accepted resolution always renders, since its payload is an envelope the validator accepts.  Its
input is then kept exactly when no marker stands where only the writer may put one, and when every
text has an encoding: a marker is refused by the readback, and a lone surrogate only as the file is
written.
-/

namespace AgentOrch

open Py Json

namespace Intake

/-! ## Axes that may be written -/

/-- What a set axis that may be written holds. -/
structure Writable (axis : Text) (a : EnvelopeAxis) (names : List Text)
    (sources : List (Text × Value)) : Prop where
  state : AxisState axis a.state a.defaultApplied
  value : a.value = .arr (names.map .str)
  source : a.source = .obj sources
  solid : ∀ name ∈ names, name ≠ []
  nodup : names.Nodup
  keyed : (dictKeys sources).Nodup
  keys : ∀ k, k ∈ dictKeys sources ↔ k ∈ names
  known : ∀ p ∈ sources, isMemberSource p.2 = true
  declares : a.state = ("declared" : Text) → ∀ p ∈ sources, isSafeDefault p.2 = false

section
variable {m : Machine} {r : Request} {axis : Text} {a : EnvelopeAxis} {names own : List Text}
  {sources : List (Text × Value)}

lemma stringItems_map (h : ∀ name ∈ names, name ≠ []) :
    stringItems (names.map .str) = some names := by
  induction names with
  | nil => rfl
  | cons name names ih =>
      obtain ⟨hname, hnames⟩ := List.forall_mem_cons.mp h
      rw [List.map_cons, stringItems, if_neg hname, ih hnames]
      rfl

/-- The validator accepts a set axis that may be written. -/
lemma Writable.axisValid (h : Writable axis a names sources) (haxis : axis ≠ envelopeEnumAxis) :
    AxisValid axis (axisPayload a) := by
  refine ⟨a.state, sources.map Prod.snd, ⟨_, a.defaultApplied, rfl, ?_, rfl, rfl, h.state,
    fun heq => absurd heq haxis, fun _ => ⟨names.map .str, names, sources, ?_,
    stringItems_map h.solid, h.nodup, ?_, keysAre_iff.mpr h.keys, rfl⟩⟩, ?_, ?_⟩
  · refine keysAre_iff.mpr fun k => ?_
    simp only [dictKeys, List.map_cons, List.map_nil, envelopeAxisKeys]
  · rw [← h.value]
    rfl
  · rw [← h.source]
    rfl
  · intro source hsource
    obtain ⟨p, hp, rfl⟩ := List.mem_map.mp hsource
    exact h.known p hp
  · intro _ hdeclared hsome
    obtain ⟨source, hsource⟩ := List.exists_mem_of_ne_nil _ hsome
    obtain ⟨p, hp, rfl⟩ := List.mem_map.mp hsource
    exact ⟨p.2, List.mem_map_of_mem hp, h.declares hdeclared p hp⟩

lemma shallow_axisPayload {n : ℕ} (hvalue : Shallow n a.value) (hsource : Shallow n a.source) :
    Shallow (n + 1) (axisPayload a) := by
  refine shallow_obj ?_ fun p hp => ?_
  · simp only [dictKeys, List.map_cons, List.map_nil]
    decide
  · simp only [List.mem_cons, List.not_mem_nil, or_false] at hp
    rcases hp with rfl | rfl | rfl | rfl
    · exact shallow_str n _
    · exact hvalue
    · exact shallow_bool n _
    · exact hsource

lemma Writable.shallow (h : Writable axis a names sources) : Shallow 2 (axisPayload a) := by
  refine shallow_axisPayload ?_ ?_
  · rw [h.value]
    refine shallow_arr fun v hv => ?_
    obtain ⟨name, -, rfl⟩ := List.mem_map.mp hv
    exact shallow_str 0 name
  · rw [h.source]
    refine shallow_obj h.keyed fun p hp => ?_
    obtain ⟨s, hs⟩ := isMemberSource_str (h.known p hp)
    rw [hs]
    exact shallow_str 0 s

/-! ### Sets of one provenance -/

lemma dictKeys_owned (source : Text) (members : List Text) :
    dictKeys (members.map fun member => (member, Value.str source)) = members := by
  rw [dictKeys, List.map_map]
  exact List.map_id members

lemma axisState_declared (axis : Text) : AxisState axis "declared" false :=
  ⟨by decide, by decide, fun _ => rfl⟩

lemma axisState_silent (haxis : axis ≠ envelopeWriteAxis) :
    AxisState axis "semantically_silent" true :=
  ⟨by decide, by decide, fun heq => absurd heq haxis⟩

lemma isMemberSource_default : isMemberSource (.str sourceDefault) = true := by decide

lemma silent_ne_declared : ("semantically_silent" : Text) ≠ "declared" := by decide

lemma writable_declared (axis : Text) (hsolid : ∀ name ∈ names, name ≠ []) (hnodup : names.Nodup) :
    Writable axis (declaredAxis names) names
      (names.map fun member => (member, .str sourceRequirement)) := by
  have hsource : ∀ p ∈ names.map fun member => (member, Value.str sourceRequirement),
      p.2 = .str sourceRequirement := by
    intro p hp
    obtain ⟨member, -, rfl⟩ := List.mem_map.mp hp
    rfl
  refine ⟨axisState_declared axis, rfl, rfl, hsolid, hnodup, ?_, ?_, ?_, ?_⟩
  · rwa [dictKeys_owned]
  · intro k
    rw [dictKeys_owned]
  · intro p hp
    rw [hsource p hp]
    decide
  · intro _ p hp
    rw [hsource p hp]
    decide

lemma writable_silent (haxis : axis ≠ envelopeWriteAxis) (hsolid : ∀ name ∈ names, name ≠ [])
    (hnodup : names.Nodup) : Writable axis (silentAxis names) names
      (names.map fun member => (member, .str sourceDefault)) := by
  refine ⟨axisState_silent haxis, rfl, rfl, hsolid, hnodup, ?_, ?_, ?_, ?_⟩
  · rwa [dictKeys_owned]
  · intro k
    rw [dictKeys_owned]
  · intro p hp
    obtain ⟨member, -, rfl⟩ := List.mem_map.mp hp
    exact isMemberSource_default
  · exact fun hdeclared => absurd hdeclared silent_ne_declared

/-- What a proposal resolves to may be written. -/
lemma Resolved.writable {raw quotes members : List Text} (hmembers : IsMembers raw members)
    (h : Resolved m r axis raw quotes a) : ∃ names sources, Writable axis a names sources := by
  have hsolid : ∀ name ∈ raw.map strip, name ≠ [] := by
    intro name hname
    obtain ⟨t, ht, rfl⟩ := List.mem_map.mp hname
    exact List.isEmpty_eq_false_iff.mp (hmembers.solid t ht)
  have hnodup : (raw.map strip).Nodup := hmembers.stripped ▸ hmembers.nodup
  cases h with
  | declared hsome hlength hquotes haxis => exact ⟨_, _, writable_declared axis hsolid hnodup⟩
  | targets targets hsome hlength hquotes haxis htargets =>
      refine ⟨_, _, writable_declared axis (fun target htarget => ?_) htargets.nodup⟩
      obtain ⟨member, -, hpath⟩ := htargets.named target htarget
      rw [← normaliseWriteTarget_normpath hpath]
      exact PathText.normpath_ne_nil target
  | noTargets => exact ⟨_, _, writable_declared axis (by simp) List.nodup_nil⟩
  | ceiling haxis => exact ⟨_, _, writable_silent haxis (by simp) List.nodup_nil⟩
  | scope haxis hceiling hscope => exact ⟨_, _, writable_silent haxis hsolid hnodup⟩

/-! ### The engine's own targets -/

/-- The names of the write axis with the engine's own targets. -/
def ownedNames (names own : List Text) : List Text :=
  own.foldl (fun names target => if target ∈ names then names else names ++ [target]) names

lemma withEngineOwned_map (names own : List Text) :
    withEngineOwned (names.map .str) own = (ownedNames names own).map .str := by
  induction own generalizing names with
  | nil => rfl
  | cons target own ih =>
      have hany : (names.map Value.str).any (Value.eqv (.str target)) = decide (target ∈ names) := by
        rw [List.any_map, Bool.eq_iff_iff, List.any_eq_true, decide_eq_true_eq]
        constructor
        · rintro ⟨name, hname, heq⟩
          obtain rfl : target = name := by simpa [Value.eqv] using heq
          exact hname
        · exact fun hmem => ⟨target, hmem, by simp [Value.eqv]⟩
      rw [withEngineOwned, hany, ownedNames, List.foldl_cons]
      by_cases hmem : target ∈ names
      · rw [decide_eq_true hmem, if_pos rfl, if_pos hmem]
        exact ih names
      · rw [decide_eq_false hmem, if_neg (by simp), if_neg hmem]
        have happend := ih (names ++ [target])
        rwa [List.map_append] at happend

/-- One more target of the engine keeps the axis one that may be written. -/
lemma Writable.engine (h : Writable axis a names sources) {target : Text} (htarget : target ≠ []) :
    Writable axis { a with
        value := .arr ((if target ∈ names then names else names ++ [target]).map .str)
        source := .obj (dictSet target (.str sourceEngine) sources) }
      (if target ∈ names then names else names ++ [target])
      (dictSet target (.str sourceEngine) sources) := by
  refine ⟨h.state, rfl, rfl, ?_, ?_, nodup_dictSet h.keyed, ?_, ?_, ?_⟩
  · split_ifs with hmem
    · exact h.solid
    · intro name hname
      rcases List.mem_append.mp hname with hname | hname
      · exact h.solid name hname
      · rw [List.mem_singleton.mp hname]
        exact htarget
  · split_ifs with hmem
    · exact h.nodup
    · refine List.nodup_append.mpr ⟨h.nodup, List.nodup_singleton _, ?_⟩
      rintro name hname name' hname' rfl
      exact hmem (List.mem_singleton.mp hname' ▸ hname)
  · intro k
    rw [dictKeys_dictSet]
    by_cases hmem : target ∈ names
    · rw [if_pos hmem, if_pos ((h.keys target).mpr hmem)]
      exact h.keys k
    · rw [if_neg hmem, if_neg fun hkey => hmem ((h.keys target).mp hkey), List.mem_append,
        List.mem_append, h.keys k]
  · intro p hp
    rcases mem_dictSet hp with hp | ⟨-, hvalue⟩
    · exact h.known p hp
    · rw [hvalue]
      decide
  · intro hdeclared p hp
    rcases mem_dictSet hp with hp | ⟨-, hvalue⟩
    · exact h.declares hdeclared p hp
    · rw [hvalue]
      decide

lemma Writable.owned (h : Writable axis a names sources) (hown : ∀ target ∈ own, target ≠ []) :
    Writable axis (ownedAxis own a) (ownedNames names own) (engineSources sources own) := by
  have hvalue : (ownedAxis own a).value = .arr ((ownedNames names own).map .str) := by
    rw [ownedAxis, h.value]
    exact congrArg Value.arr (withEngineOwned_map names own)
  have hsource : (ownedAxis own a).source = .obj (engineSources sources own) := by
    rw [ownedAxis, h.source]
  suffices hall : Writable axis { a with
      value := .arr ((ownedNames names own).map .str)
      source := .obj (engineSources sources own) } (ownedNames names own)
      (engineSources sources own) from
    ⟨hall.state, hvalue, hsource, hall.solid, hall.nodup, hall.keyed, hall.keys, hall.known,
      hall.declares⟩
  clear hvalue hsource
  unfold ownedNames engineSources
  induction own generalizing a names sources with
  | nil => exact ⟨h.state, rfl, rfl, h.solid, h.nodup, h.keyed, h.keys, h.known, h.declares⟩
  | cons target own ih =>
      obtain ⟨htarget, hown⟩ := List.forall_mem_cons.mp hown
      have hrest := ih (h.engine htarget) hown
      exact ⟨hrest.state, rfl, rfl, hrest.solid, hrest.nodup, hrest.keyed, hrest.keys, hrest.known,
        hrest.declares⟩

end

/-! ## The payload is valid -/

/-- The two policies that are not left unresolved. -/
def policyDeclared : EnvelopeAxis :=
  ⟨"declared", .str userDecision, false, .str sourceRequirement, none⟩

def policySilent : EnvelopeAxis :=
  ⟨"semantically_silent", .str userDecision, true, .str sourceDefault, none⟩

section
variable {m : Machine} {r : Request} {a : EnvelopeAxis} {payload : List (Text × Value)}
  {axes : List (Text × EnvelopeAxis)} {readOnlyReview : Bool} {p : Place}
  {routing : List (Text × Value)}

lemma axisFromProposal_policy {entry : Value}
    (h : axisFromProposal m r envelopeEnumAxis entry = .ok a)
    (hstate : a.state ≠ ("unresolved" : Text)) : a = policyDeclared ∨ a = policySilent := by
  unfold axisFromProposal at h
  cases entry with
  | obj items =>
      obtain ⟨_, -, h⟩ := step_eq_ok.mp h
      split at h
      · exact absurd h throw_ne_ok
      · next state _ =>
        obtain ⟨detail, -, h⟩ := step_eq_ok.mp h
        by_cases hunresolved : state = ("unresolved" : Text)
        · rw [if_pos hunresolved] at h
          obtain rfl := return_eq_ok.mp h
          exact absurd (unresolvedAxis_state _) hstate
        rw [if_neg hunresolved, if_pos rfl, policyAxis] at h
        split_ifs at h with hvalue hdeclared
        · obtain rfl := Except.ok.inj h
          exact absurd (unresolvedAxis_state _) hstate
        · obtain ⟨quotes, -, h⟩ := step_eq_ok.mp h
          obtain ⟨_, -, h⟩ := step_eq_ok.mp h
          exact .inl (return_eq_ok.mp h).symm
        · exact .inr (Except.ok.inj h).symm
  | _ => cases h

lemma policy_valid (h : a = policyDeclared ∨ a = policySilent) :
    AxisValid envelopeEnumAxis (axisPayload a) ∧ Shallow 2 (axisPayload a) := by
  have hne : envelopeEnumAxis ≠ envelopeWriteAxis := by decide
  have hkeys : ∀ a, keysAre [("state", Value.str (EnvelopeAxis.state a)), ("value", a.value),
      ("default_applied", .bool a.defaultApplied), ("source", a.source)] envelopeAxisKeys = true :=
    fun a => keysAre_iff.mpr fun k => by
      simp only [dictKeys, List.map_cons, List.map_nil, envelopeAxisKeys]
  rcases h with rfl | rfl
  · refine ⟨⟨_, [.str sourceRequirement], ⟨_, false, rfl, hkeys policyDeclared, rfl, rfl,
      axisState_declared _, fun _ => ⟨rfl, rfl⟩, fun hne => absurd rfl hne⟩, ?_,
      fun hne => absurd rfl hne⟩, shallow_axisPayload (shallow_str 1 _) (shallow_str 1 _)⟩
    intro source hsource
    rw [List.mem_singleton.mp hsource]
    decide
  · refine ⟨⟨_, [.str sourceDefault], ⟨_, true, rfl, hkeys policySilent, rfl, rfl,
      axisState_silent hne, fun _ => ⟨rfl, rfl⟩, fun hne => absurd rfl hne⟩, ?_,
      fun hne => absurd rfl hne⟩, shallow_axisPayload (shallow_str 1 _) (shallow_str 1 _)⟩
    intro source hsource
    rw [List.mem_singleton.mp hsource]
    exact isMemberSource_default

lemma engineOwnedWriteTargets_ne_nil : ∀ target ∈ engineOwnedWriteTargets p routing,
    target ≠ [] := by
  intro target htarget
  rcases List.mem_cons.mp htarget with rfl | htarget
  · exact PathText.normpath_ne_nil _
  · split_ifs at htarget
    · rw [List.mem_singleton.mp htarget]
      exact PathText.normpath_ne_nil _
    · exact absurd htarget List.not_mem_nil

/-- The axis an accepted axis is written as. -/
def written (p : Place) (routing : List (Text × Value)) (q : Text × EnvelopeAxis) : EnvelopeAxis :=
  if q.1 = envelopeWriteAxis then ownedAxis (engineOwnedWriteTargets p routing) q.2 else q.2

/-- Every axis of an accepted reply is written as a valid one. -/
lemma Accepted.written_valid (h : Accepted m r readOnlyReview payload axes)
    {q : Text × EnvelopeAxis} (hq : q ∈ axes) :
    AxisValid q.1 (axisPayload (written p routing q)) ∧
      Shallow 2 (axisPayload (written p routing q)) := by
  have hname : q.1 ∈ envelopeAxes := h.keys ▸ List.mem_map_of_mem hq
  obtain ⟨hfrom, hstate⟩ := h.axes q hq
  rcases List.mem_append.mp hname with hset | henum
  · have hne : q.1 ≠ envelopeEnumAxis := ne_policy hset
    obtain ⟨raw, quotes, members, -, hmembers, hresolved⟩ := axisFromProposal_set hne hfrom hstate
    obtain ⟨names, sources, hwritable⟩ := hresolved.writable hmembers
    unfold written
    split_ifs with hwrite
    · have hown : ∀ target ∈ engineOwnedWriteTargets p routing, target ≠ [] :=
        engineOwnedWriteTargets_ne_nil
      have howned := hwritable.owned hown
      exact ⟨howned.axisValid hne, howned.shallow⟩
    · exact ⟨hwritable.axisValid hne, hwritable.shallow⟩
  · obtain ⟨name, a⟩ := q
    obtain rfl : name = envelopeEnumAxis := List.mem_singleton.mp henum
    have hne : envelopeEnumAxis ≠ envelopeWriteAxis := by decide
    rw [written, if_neg hne]
    exact policy_valid (axisFromProposal_policy hfrom hstate)

lemma dictKeys_envelopePayload (hkeys : dictKeys axes = envelopeAxes) :
    dictKeys (envelopePayload axes p routing) = ("schema_version" : Text) :: envelopeAxes := by
  rw [← hkeys]
  simp [envelopePayload, dictKeys]

/-- The payload of an accepted reply is a valid envelope, a few objects deep. -/
lemma Accepted.payload_valid (h : Accepted m r readOnlyReview payload axes) :
    EnvelopeValid (envelopePayload axes p routing) ∧
      Shallow 3 (.obj (envelopePayload axes p routing)) := by
  have hdict : dictKeys (envelopePayload axes p routing) =
      ("schema_version" : Text) :: envelopeAxes := dictKeys_envelopePayload h.keys
  refine ⟨⟨⟨?_, ?_⟩, ?_⟩, ?_⟩
  · rfl
  · exact keysAre_iff.mpr fun k => by rw [hdict]
  · intro axis haxis
    rw [← h.keys] at haxis
    obtain ⟨q, hq, rfl⟩ := List.mem_map.mp haxis
    rw [getValue_envelopePayload h.keys hq]
    exact (h.written_valid hq).1
  · refine shallow_obj (by rw [hdict]; decide) fun pair hpair => ?_
    rcases List.mem_cons.mp hpair with rfl | hpair
    · exact shallow_int 2 1
    · obtain ⟨q, hq, rfl⟩ := List.mem_map.mp hpair
      exact (h.written_valid hq).2

end

/-! ## Markers and surrogates -/

section
variable {rt : Runtime} {envelope : Envelope} {before body : Text}

/-- A marker outside the block's own lines is refused. -/
lemma refused_of_not_free (h : ¬ (MarkerFree before ∧ MarkerFree body)) :
    IsEnvelopeError (envelopeBlockText (withBlock before body "\n")) := by
  have hspace : ∀ c ∈ ("\n" : Text), isSpace c = true := by
    intro c hc
    rw [List.mem_singleton.mp hc]
    decide
  have hbegin := @count_withBlock "\n" before body _ isMarker_begin (by decide) hspace
  have hend := @count_withBlock "\n" before body _ isMarker_end (by decide) hspace
  have hfree : ∀ t, MarkerFree t ↔ count envelopeBegin t = 0 ∧ count envelopeEnd t = 0 := by
    intro t
    rw [count_eq_zero isMarker_begin.ne_nil, count_eq_zero isMarker_end.ne_nil]
    rfl
  rw [hfree, hfree] at h
  rcases envelopeBlockText_cases (withBlock before body "\n") with
    ⟨-, hnone, hnone'⟩ | ⟨block, hblock⟩ | hrefused
  · omega
  · obtain ⟨_, _, _, _, _, hframe, -⟩ := framed_of hblock
    have hbegins := hframe.begins
    have hends := hframe.ends
    omega
  · exact hrefused

/-- A surrogate occurs in the body where it occurs in a string of the envelope. -/
lemma encodable_bodyText (hfloats : (Value.obj envelope).floats = []) :
    Py.Encodable (bodyText rt envelope) ↔
      ∀ s ∈ (Value.obj envelope).strings, Py.Encodable s := by
  have hfloats' : (Value.obj (sortedItems envelope)).floats = [] := by
    rw [← sortKeys_obj]
    refine List.eq_nil_iff_forall_not_mem.mpr fun x hx => ?_
    have hmem := floats_sortKeys _ hx
    rw [hfloats] at hmem
    exact absurd hmem List.not_mem_nil
  have hoccurs : ∀ c, isSurrogate c = true →
      (c ∈ bodyText rt envelope ↔ ∃ s ∈ (Value.obj envelope).strings, c ∈ s) := by
    intro c hc
    have hrange : 0xD800 ≤ c.val := by
      rw [isSurrogate, Bool.and_eq_true, decide_eq_true_eq] at hc
      exact hc.1
    have hsmall : ∀ t : Text, (t.all fun d => decide (d.val < 0xD800)) = true → c ∉ t := by
      intro t ht hmem
      exact absurd (of_decide_eq_true (List.all_eq_true.mp ht c hmem)) (by omega)
    have hquote : (0x22 : CodePoint) ∉ [c] := by
      intro hmem
      rw [← List.mem_singleton.mp hmem] at hrange
      exact absurd hrange (by decide)
    have hplain : ∀ d ∈ [c], escapeChar d = [d] ∧ d ≠ 0x5C := by
      intro d hd
      obtain rfl := List.mem_singleton.mp hd
      have hne : ∀ n : CodePoint, n.val < 0xD800 → d ≠ n := by
        rintro n hn rfl
        omega
      refine ⟨?_, hne _ (by decide)⟩
      rw [escapeChar, if_neg, if_neg (hne _ (by decide)), if_neg (hne _ (by decide)),
        if_neg (hne _ (by decide)), if_neg (hne _ (by decide)), if_neg (hne _ (by decide)), if_neg]
      · omega
      · exact not_or.mpr ⟨hne _ (by decide), hne _ (by decide)⟩
    have hforeign : (Layout.indented 2 rt.floatRepr).Foreign c := by
      refine ⟨hsmall _ (by decide), ?_⟩
      by_contra hspace
      rw [Bool.not_eq_false, isJsonSpace, Bool.or_eq_true, Bool.or_eq_true, Bool.or_eq_true,
        beq_iff_eq, beq_iff_eq, beq_iff_eq, beq_iff_eq] at hspace
      rcases hspace with ((rfl | rfl) | rfl) | rfl <;> exact absurd hrange (by decide)
    have hbody := infix_laid (Layout.indented_spaced 2 rt.floatRepr) hquote rfl hforeign
      (.obj (sortedItems envelope)) 0 [] (by rw [hfloats']; simp)
    have hspell : ∀ s, [c] <:+: (Layout.indented 2 rt.floatRepr).spell s ↔ [c] <:+: s :=
      fun s => infix_spellRaw hplain rfl (hsmall _ (by decide))
    rw [List.append_nil, ← sortKeys_obj] at hbody
    simp only [mem_strings_sortKeys, hspell, List.singleton_infix_iff, List.not_mem_nil,
      or_false] at hbody
    rwa [sortKeys_obj] at hbody
  constructor
  · intro h s hs c hc
    by_contra hsurrogate
    have hsurrogate : isSurrogate c = true := by simpa using hsurrogate
    have hbody := h c ((hoccurs c hsurrogate).mpr ⟨s, hs, hc⟩)
    rw [hsurrogate] at hbody
    cases hbody
  · intro h c hc
    by_contra hsurrogate
    have hsurrogate : isSurrogate c = true := by simpa using hsurrogate
    obtain ⟨s, hs, hmem⟩ := (hoccurs c hsurrogate).mp hc
    have hs := h s hs c hmem
    rw [hsurrogate] at hs
    cases hs

end

/-! ## What becomes of an input -/

lemma join_append (sep : Text) {a b : List Text} (ha : a ≠ []) (hb : b ≠ []) :
    join sep (a ++ b) = join sep a ++ sep ++ join sep b := by
  induction a with
  | nil => exact absurd rfl ha
  | cons t a ih =>
      cases a with
      | nil =>
          cases b with
          | nil => exact absurd rfl hb
          | cons s b => rfl
      | cons u a =>
          show t ++ sep ++ join sep (u :: a ++ b) = t ++ sep ++ join sep (u :: a) ++ sep ++ join sep b
          rw [ih (by simp)]
          simp only [List.append_assoc]

/-- What stands in an input before its envelope. -/
def heading (m : Machine) (p : Place) (task : TaskRecord) (routing : List (Text × Value))
    (reason routingText plan : Text) : Text :=
  plan ++ (draftBlock m task ++ join "\n" (inputLines m p task routing reason routingText))

/-- The texts an input is written from. -/
def writtenTexts (m : Machine) (p : Place) (task : TaskRecord) (routing : List (Text × Value))
    (reason routingText plan : Text) (axes : List (Text × EnvelopeAxis)) : List Text :=
  heading m p task routing reason routingText plan ::
    (Value.obj (envelopePayload axes p routing)).strings

section
variable {m : Machine} {r : Request} {payload : List (Text × Value)}
  {axes : List (Text × EnvelopeAxis)} {readOnlyReview : Bool} {p : Place} {task : TaskRecord}
  {routing : List (Text × Value)} {reason routingText plan : Text} {profile : Except Exc Profile}

/-- The text of an input whose envelope renders. -/
def inputText (m : Machine) (p : Place) (task : TaskRecord) (routing : List (Text × Value))
    (reason routingText plan : Text) (axes : List (Text × EnvelopeAxis)) : Text :=
  withBlock (heading m p task routing reason routingText plan)
    (bodyText m.toRuntime (envelopePayload axes p routing)) "\n"

/-- An accepted resolution renders, and its input is read back and encoded. -/
lemma Accepted.writeExecutionInput (h : Accepted m r readOnlyReview payload axes)
    (haccepted : unresolvedAxes axes = []) (hdumps : 3 ≤ m.dumpsDepth)
    (hrouting : dumpsUnsorted m (.obj routing) = .ok routingText)
    (hplan : planBlock m task profile = .ok plan) :
    Intake.writeExecutionInput m p task routing reason profile axes = (do
      let input := inputText m p task routing reason routingText plan axes
      let readback ← extractEnvelope m.toRuntime input
      require (readback.any fun e => (Value.obj e).eqv (.obj (envelopePayload axes p routing)))
        (.envelopeError "rendered envelope block does not read back as the resolved envelope")
      let _ ← encoded input
      return input) := by
  obtain ⟨hvalid, hshallow⟩ : EnvelopeValid (envelopePayload axes p routing) ∧
    Shallow 3 (.obj (envelopePayload axes p routing)) := h.payload_valid
  have hrender := hvalid.renders hshallow.keyed hdumps
  have htext : ∀ lines : List Text, lines ≠ [] → ∀ block : Text,
      join "\n" (lines ++ [block, ""]) = join "\n" lines ++ "\n" ++ (block ++ "\n") := by
    intro lines hlines block
    rw [join_append _ hlines (by simp)]
    show _ ++ (block ++ [0x0A] ++ []) = _
    rw [List.append_nil]
    rfl
  have hinput : plan ++ (draftBlock m task ++ join "\n" (inputLines m p task routing reason
      routingText ++ [envelopeBegin ++ "\n" ++ bodyText m.toRuntime (envelopePayload axes p routing)
        ++ "\n" ++ envelopeEnd, ""])) =
      inputText m p task routing reason routingText plan axes := by
    rw [htext _ (by simp [inputLines])]
    show plan ++ (draftBlock m task ++ (_ ++ [0x0A] ++ (envelopeBegin ++ [0x0A] ++ _ ++ [0x0A] ++
      envelopeEnd ++ [0x0A]))) = _
    simp [inputText, withBlock, heading]
    rfl
  unfold Intake.writeExecutionInput
  rw [hrouting, returned_bind, decide_eq_true haccepted, require_true_bind]
  dsimp only
  rw [hrender, returned_bind, hplan, returned_bind, hinput]

lemma encodable_inputText (h : Accepted m r readOnlyReview payload axes) :
    Py.Encodable (inputText m p task routing reason routingText plan axes) ↔
      ∀ t ∈ writtenTexts m p task routing reason routingText plan axes, Py.Encodable t := by
  obtain ⟨-, hshallow⟩ : EnvelopeValid (envelopePayload axes p routing) ∧
    Shallow 3 (.obj (envelopePayload axes p routing)) := h.payload_valid
  have hbegin : Py.Encodable envelopeBegin := encodable_ofString _
  have hend : Py.Encodable envelopeEnd := encodable_ofString _
  have hline : isSurrogate 0x0A = false := by decide
  have hlast : Py.Encodable "\n" := encodable_ofString _
  rw [inputText, withBlock, encodable_append, encodable_cons, encodable_append, encodable_cons,
    encodable_append, encodable_cons, encodable_append,
    encodable_bodyText (floats_of_floatFree hshallow.floatFree), writtenTexts, List.forall_mem_cons]
  tauto

/-- Without markers the input is read back as it should be. -/
lemma Accepted.reads (h : Accepted m r readOnlyReview payload axes)
    (haccepted : unresolvedAxes axes = []) (hloads : 3 ≤ m.loadsDepth) (hdumps : 3 ≤ m.dumpsDepth)
    (hrouting : dumpsUnsorted m (.obj routing) = .ok routingText)
    (hplan : planBlock m task profile = .ok plan)
    (hfree : ∀ t ∈ writtenTexts m p task routing reason routingText plan axes, MarkerFree t) :
    Intake.writeExecutionInput m p task routing reason profile axes = (do
      let _ ← encoded (inputText m p task routing reason routingText plan axes)
      return inputText m p task routing reason routingText plan axes) := by
  obtain ⟨hvalid, hshallow⟩ : EnvelopeValid (envelopePayload axes p routing) ∧
    Shallow 3 (.obj (envelopePayload axes p routing)) := h.payload_valid
  obtain ⟨hheading, hstrings⟩ := List.forall_mem_cons.mp hfree
  have hfloats : ∀ x ∈ (Value.obj (envelopePayload axes p routing)).floats,
      ReprReads m.toRuntime x := by
    rw [floats_of_floatFree hshallow.floatFree]
    exact fun x hx => absurd hx List.not_mem_nil
  have htrips : RoundTrips m.toRuntime (envelopePayload axes p routing)
      (heading m p task routing reason routingText plan) "\n" :=
    (roundTrips_iff hloads hdumps hvalid.validates hshallow.keyed hfloats hheading rfl).mpr hstrings
  obtain ⟨block, readback, hblock, hextract, hequal⟩ := htrips
  obtain rfl := Except.ok.inj ((hvalid.renders hshallow.keyed hdumps).symm.trans hblock)
  have htext : heading m p task routing reason routingText plan ++ "\n" ++ (envelopeBegin ++ "\n" ++
      bodyText m.toRuntime (envelopePayload axes p routing) ++ "\n" ++ envelopeEnd) ++ "\n" =
      inputText m p task routing reason routingText plan axes := by
    show heading m p task routing reason routingText plan ++ [0x0A] ++ (envelopeBegin ++ [0x0A] ++
      bodyText m.toRuntime (envelopePayload axes p routing) ++ [0x0A] ++ envelopeEnd) ++ [0x0A] = _
    simp [inputText, withBlock]
    rfl
  rw [htext] at hextract
  rw [h.writeExecutionInput haccepted hdumps hrouting hplan]
  dsimp only
  rw [hextract, returned_bind, Option.any_some, hequal, require_true_bind]

/-- With a marker too many it is refused. -/
lemma Accepted.refused (h : Accepted m r readOnlyReview payload axes)
    (haccepted : unresolvedAxes axes = []) (hdumps : 3 ≤ m.dumpsDepth)
    (hrouting : dumpsUnsorted m (.obj routing) = .ok routingText)
    (hplan : planBlock m task profile = .ok plan)
    (hmarked : ∃ t ∈ writtenTexts m p task routing reason routingText plan axes, ¬ MarkerFree t) :
    IsEnvelopeError (Intake.writeExecutionInput m p task routing reason profile axes) := by
  obtain ⟨-, hshallow⟩ : EnvelopeValid (envelopePayload axes p routing) ∧
    Shallow 3 (.obj (envelopePayload axes p routing)) := h.payload_valid
  have hfloats : ∀ x ∈ (Value.obj (envelopePayload axes p routing)).floats,
      ReprReads m.toRuntime x := by
    rw [floats_of_floatFree hshallow.floatFree]
    exact fun x hx => absurd hx List.not_mem_nil
  have hnot : ¬ (MarkerFree (heading m p task routing reason routingText plan) ∧
      MarkerFree (bodyText m.toRuntime (envelopePayload axes p routing))) := by
    rintro ⟨hheading, hbody⟩
    obtain ⟨t, ht, hmarks⟩ := hmarked
    rcases List.mem_cons.mp ht with rfl | ht
    · exact hmarks hheading
    · exact hmarks ((markerFree_bodyText hfloats).mp hbody t ht)
  obtain ⟨message, hmessage⟩ := refused_of_not_free hnot
  refine ⟨message, ?_⟩
  rw [h.writeExecutionInput haccepted hdumps hrouting hplan]
  dsimp only
  rw [extractEnvelope, inputText, hmessage]
  rfl

/-- Three cases that exclude each other decide an outcome. -/
lemma settles_of_cases {α : Type} {x : Except Exc α} {free plain : Prop}
    (hwritten : free → plain → ∃ a, x = .ok a)
    (hlone : free → ¬ plain → x = .error .unicodeEncodeError)
    (hmarked : ¬ free → IsEnvelopeError x) :
    ((∃ a, x = .ok a) ↔ free ∧ plain) ∧ (IsEnvelopeError x ↔ ¬ free) ∧
      (x = .error .unicodeEncodeError ↔ free ∧ ¬ plain) := by
  by_cases hfree : free
  · by_cases hplain : plain
    · obtain ⟨a, rfl⟩ := hwritten hfree hplain
      simp [hfree, hplain, IsEnvelopeError]
    · have hraised := hlone hfree hplain
      subst hraised
      simp [hfree, hplain, IsEnvelopeError]
  · obtain ⟨message, rfl⟩ := hmarked hfree
    simp [hfree, IsEnvelopeError]

/-- The input of an accepted resolution is written exactly when no text of it holds a marker and
each has an encoding.  A marker is an envelope error, and a text without an encoding raises as the
file is written. -/
theorem writeExecutionInput_settles {reply : Text} {sources : Sources} {candidates : List Text}
    (hloads : 3 ≤ m.loadsDepth) (hdumps : 3 ≤ m.dumpsDepth)
    (hparse : parseResolverReply m reply sources task readOnlyReview = .ok (axes, candidates))
    (haccepted : unresolvedAxes axes = [])
    (hrouting : dumpsUnsorted m (.obj routing) = .ok routingText)
    (hplan : planBlock m task profile = .ok plan) (p : Place) (reason : Text) :
    ((∃ input, writeExecutionInput m p task routing reason profile axes = .ok input) ↔
      (∀ t ∈ writtenTexts m p task routing reason routingText plan axes, MarkerFree t) ∧
        ∀ t ∈ writtenTexts m p task routing reason routingText plan axes, Py.Encodable t) ∧
    (IsEnvelopeError (writeExecutionInput m p task routing reason profile axes) ↔
      ¬ ∀ t ∈ writtenTexts m p task routing reason routingText plan axes, MarkerFree t) ∧
    (writeExecutionInput m p task routing reason profile axes = .error .unicodeEncodeError ↔
      (∀ t ∈ writtenTexts m p task routing reason routingText plan axes, MarkerFree t) ∧
        ¬ ∀ t ∈ writtenTexts m p task routing reason routingText plan axes, Py.Encodable t) := by
  obtain ⟨payload, -, h⟩ := accepted_of_parse hparse haccepted
  have hencodable : Py.Encodable (inputText m p task routing reason routingText plan axes) ↔ _ :=
    encodable_inputText h
  apply settles_of_cases
  · intro hfree hplain
    rw [h.reads haccepted hloads hdumps hrouting hplan hfree, encoded, encodeStrict,
      if_pos (hencodable.mpr hplain)]
    exact ⟨_, rfl⟩
  · intro hfree hlone
    rw [h.reads haccepted hloads hdumps hrouting hplan hfree, encoded, encodeStrict,
      if_neg fun htext => hlone (hencodable.mp htext)]
    rfl
  · intro hmarked
    refine h.refused haccepted hdumps hrouting hplan ?_
    push Not at hmarked
    exact hmarked

end

/-! ### A written input -/

/-- Nothing of the input of the sample holds a marker. -/
lemma writable_fix : ∃ resolution axes candidates routingText,
    resolveEnvelope asciiMachine fixSurroundings.toAnswers
      [("task text", fixTask.taskDescription)] fixTask false = .ok resolution ∧
    resolution.axes = some axes ∧
    parseResolverReply asciiMachine fixReply [("task text", fixTask.taskDescription)] fixTask
      false = .ok (axes, candidates) ∧ unresolvedAxes axes = [] ∧
    dumpsUnsorted asciiMachine (.obj fixRouting) = .ok routingText ∧
    ∀ t ∈ writtenTexts asciiMachine fixPlace fixTask fixRouting "auto_start=true" routingText []
      axes, MarkerFree t ∧ Py.Encodable t := by
  obtain ⟨resolution, axes, hresolution, haxes, hpayload⟩ := resolution_fix
  obtain ⟨reply, candidates, hreply, hparse, haccepted⟩ := resolveEnvelope_accepts hresolution haxes
  obtain rfl := Except.ok.inj hreply
  obtain ⟨routingText, hrouting⟩ :
      ∃ t, dumpsUnsorted asciiMachine (.obj fixRouting) = .ok t := ⟨_, rfl⟩
  have hheading : (dumpsUnsorted asciiMachine (.obj fixRouting)).toOption.all (fun t =>
      decide (MarkerFree (heading asciiMachine fixPlace fixTask fixRouting "auto_start=true" t []) ∧
        Py.Encodable (heading asciiMachine fixPlace fixTask fixRouting "auto_start=true" t []))) =
          true := by
    decide +kernel
  rw [hrouting, Except.toOption, Option.all_some, decide_eq_true_eq] at hheading
  exact ⟨resolution, axes, candidates, routingText, hresolution, haxes, hparse, haccepted, hrouting,
    List.forall_mem_cons.mpr ⟨hheading, hpayload⟩⟩

/-- The input of the sample is written. -/
lemma written_fix {profile : Except Exc Profile} : ∃ resolution axes input,
    resolveEnvelope asciiMachine fixSurroundings.toAnswers
      [("task text", fixTask.taskDescription)] fixTask false = .ok resolution ∧
    resolution.axes = some axes ∧ writeExecutionInput asciiMachine fixPlace fixTask fixRouting
      "auto_start=true" profile axes = .ok input := by
  obtain ⟨resolution, axes, candidates, routingText, hresolution, haxes, hparse, haccepted, hrouting,
    htexts⟩ := writable_fix
  obtain ⟨payload, -, h⟩ := accepted_of_parse hparse haccepted
  have hplan : planBlock asciiMachine fixTask profile = .ok [] := rfl
  refine ⟨resolution, axes, inputText asciiMachine fixPlace fixTask fixRouting "auto_start=true"
    routingText [] axes, hresolution, haxes, ?_⟩
  rw [h.reads haccepted (by decide) (by decide) hrouting hplan fun t ht => (htexts t ht).1, encoded,
    encodeStrict, if_pos ((encodable_inputText h).mpr fun t ht => (htexts t ht).2)]
  rfl

theorem writeExecutionInput_settles_fix : ∃ axes candidates input,
    parseResolverReply asciiMachine fixReply [("task text", fixTask.taskDescription)] fixTask
      false = .ok (axes, candidates) ∧ unresolvedAxes axes = [] ∧
    writeExecutionInput asciiMachine fixPlace fixTask fixRouting "auto_start=true"
      (.error (.profileError "not loaded")) axes = .ok input := by
  obtain ⟨resolution, axes, candidates, routingText, -, -, hparse, haccepted, hrouting, htexts⟩ :=
    writable_fix
  have hplan : planBlock asciiMachine fixTask (.error (.profileError "not loaded")) = .ok [] := rfl
  have hsettles := writeExecutionInput_settles (by decide) (by decide) hparse haccepted hrouting
    hplan fixPlace "auto_start=true"
  obtain ⟨input, hinput⟩ := hsettles.1.mpr ⟨fun t ht => (htexts t ht).1, fun t ht => (htexts t ht).2⟩
  exact ⟨axes, candidates, input, hparse, haccepted, hinput⟩

end Intake

end AgentOrch
