import AgentOrch.Properties.EnvelopeRoundTrip
import AgentOrch.Properties.ExecutionPlans
import AgentOrch.Properties.ResolvedAxes

/-!
# Accepted replies

A reply is accepted when every axis of it resolves.  Then every axis is one that its proposal made,
each with the quotes it was offered with.
-/

namespace AgentOrch

open Py Json

namespace Intake

/-! ## What a reply offers -/

/-- The texts proposed for an axis, each with its quote. -/
def offered (payload : List (Text × Value)) (axis : Text) : List (Text × Text) :=
  match getValue axis payload with
  | .obj items =>
    match textsOf (getValue "value" items), textsOf (getValue "evidence" items) with
    | some raw, some quotes => raw.zip quotes
    | _, _ => []
  | _ => []

/-- The sources hold the words of a text, up to white space and letter case. -/
def Spoken (m : Machine) (t blob : Text) : Prop :=
  normaliseForGrounding m t ≠ [] ∧ normaliseForGrounding m t <:+: blob

/-- A member is where its provenance says it is from. -/
inductive Truthful (m : Machine) (r : Request) (own : List Text) (axis : Text)
    (offered : List (Text × Text)) (member : Text) : Value → Prop
  | quoted (raw quote : Text) (hoffer : (raw, quote) ∈ offered) (hspoken : Spoken m quote r.blob)
      (hmember : axis ≠ envelopeWriteAxis → member = strip raw)
      (htarget : axis = envelopeWriteAxis →
        normaliseWriteTarget m (strip raw) r.worktree = .ok (some member)) :
      Truthful m r own axis offered member (.str sourceRequirement)
  | scope (haxis : axis = envelopeSemanticAxis) (hspoken : Spoken m member r.scopeBlob) :
      Truthful m r own axis offered member (.str sourceDefault)
  | engine (haxis : axis = envelopeWriteAxis) (hown : member ∈ own) :
      Truthful m r own axis offered member (.str sourceEngine)

section
variable {m : Machine} {r : Request} {own : List Text} {axis : Text} {raw quotes : List Text}
  {payload : List (Text × Value)} {a : EnvelopeAxis}

lemma spoken_of_grounded {t blob : Text} (h : grounded m t blob = true) : Spoken m t blob := by
  rw [grounded, Bool.and_eq_true, Bool.not_eq_true', List.isEmpty_eq_false_iff, contains,
    Option.isSome_iff_exists] at h
  obtain ⟨hne, ⟨before, after⟩, hsplit⟩ := h
  exact ⟨hne, before, after, (splitFirst_eq_append hsplit).symm⟩

lemma Offers.offered (h : Offers (getValue axis payload) raw quotes) :
    Intake.offered payload axis = raw.zip quotes := by
  obtain ⟨items, hentry, hraw, hquotes⟩ := h
  rw [Intake.offered, hentry]
  dsimp only
  rw [hraw, hquotes]

/-- Where there are as many quotes, each text has its own. -/
lemma exists_quote (hlength : quotes.length = raw.length) {t : Text} (ht : t ∈ raw) :
    ∃ quote ∈ quotes, (t, quote) ∈ raw.zip quotes := by
  rw [← List.map_fst_zip (Nat.le_of_eq hlength.symm)] at ht
  obtain ⟨⟨t, quote⟩, hp, rfl⟩ := List.mem_map.mp ht
  exact ⟨quote, (List.of_mem_zip hp).2, hp⟩

/-- The members of one provenance. -/
lemma mem_ownedBy {source : Text} {members : List Text} {items : List (Text × Value)}
    (h : ownedBy source members = .obj items) {p : Text × Value} (hp : p ∈ items) :
    p.1 ∈ members ∧ p.2 = .str source := by
  obtain rfl := Value.obj.inj h
  obtain ⟨member, hmember, rfl⟩ := List.mem_map.mp hp
  exact ⟨hmember, rfl⟩

/-- A resolved set names its sources truthfully. -/
lemma Resolved.truthful (h : Resolved m r axis raw quotes a) (hset : axis ∈ envelopeSetAxes) :
    ∃ items, a.source = .obj items ∧
      ∀ p ∈ items, Truthful m r own axis (raw.zip quotes) p.1 p.2 := by
  cases h with
  | declared hsome hlength hquotes haxis =>
      refine ⟨_, rfl, fun p hp => ?_⟩
      obtain ⟨hmember, hsource⟩ := mem_ownedBy rfl hp
      obtain ⟨t, ht, hstrip⟩ := List.mem_map.mp hmember
      obtain ⟨quote, hquote, hoffer⟩ := exists_quote hlength ht
      rw [hsource]
      exact .quoted t quote hoffer (spoken_of_grounded (hquotes quote hquote))
        (fun _ => hstrip.symm) (fun heq => absurd heq haxis)
  | targets targets hsome hlength hquotes haxis htargets =>
      refine ⟨_, rfl, fun p hp => ?_⟩
      obtain ⟨hmember, hsource⟩ := mem_ownedBy rfl hp
      obtain ⟨member, hnamed, hpath⟩ := htargets.named p.1 hmember
      obtain ⟨t, ht, rfl⟩ := List.mem_map.mp hnamed
      obtain ⟨quote, hquote, hoffer⟩ := exists_quote hlength ht
      rw [hsource]
      exact .quoted t quote hoffer (spoken_of_grounded (hquotes quote hquote))
        (fun hne => absurd haxis hne) (fun _ => hpath)
  | noTargets => exact ⟨[], rfl, by simp⟩
  | ceiling => exact ⟨[], rfl, by simp⟩
  | scope haxis hceiling hscope =>
      refine ⟨_, rfl, fun p hp => ?_⟩
      obtain ⟨hmember, hsource⟩ := mem_ownedBy rfl hp
      have hsemantic : axis = envelopeSemanticAxis := by
        simp only [envelopeSetAxes, List.mem_cons, List.not_mem_nil, or_false] at hset
        rcases hset with rfl | rfl | rfl | rfl | rfl
        · rfl
        · exact absurd rfl haxis
        · exact absurd (by decide) hceiling
        · exact absurd (by decide) hceiling
        · exact absurd (by decide) hceiling
      rw [hsource]
      exact .scope hsemantic (spoken_of_grounded (hscope p.1 hmember))

/-- The engine's own targets are added as what they are. -/
lemma mem_engineSources {items : List (Text × Value)} {p : Text × Value}
    (h : p ∈ engineSources items own) : p ∈ items ∨ p.1 ∈ own ∧ p.2 = .str sourceEngine := by
  unfold engineSources at h
  induction own generalizing items with
  | nil => exact .inl h
  | cons target own ih =>
      rw [List.foldl_cons] at h
      rcases ih h with h | ⟨hown, hsource⟩
      · rcases mem_dictSet h with h | ⟨hkey, hvalue⟩
        · exact .inl h
        · exact .inr ⟨hkey ▸ List.mem_cons_self, hvalue⟩
      · exact .inr ⟨List.mem_cons_of_mem _ hown, hsource⟩

end

/-! ## Accepted replies -/

section
variable {m : Machine} {r : Request} {payload : List (Text × Value)} {names : List Text}
  {axes : List (Text × EnvelopeAxis)}

lemma axesFrom_eq_ok (h : axesFrom m r payload names = .ok axes) :
    dictKeys axes = names ∧
      ∀ p ∈ axes, axisFromProposal m r p.1 (getValue p.1 payload) = .ok p.2 := by
  induction names generalizing axes with
  | nil =>
      obtain rfl := Except.ok.inj h
      exact ⟨rfl, by simp⟩
  | cons name names ih =>
      obtain ⟨a, ha, h⟩ := step_eq_ok.mp h
      obtain ⟨others, hothers, h⟩ := step_eq_ok.mp h
      obtain rfl := return_eq_ok.mp h
      obtain ⟨hkeys, hall⟩ := ih hothers
      refine ⟨?_, List.forall_mem_cons.mpr ⟨ha, hall⟩⟩
      rw [dictKeys, List.map_cons]
      exact congrArg (name :: ·) hkeys

lemma nodup_envelopeAxes : envelopeAxes.Nodup := by decide

/-- No axis of an accepted resolution is unresolved. -/
lemma resolved_of_unresolvedAxes (hkeys : dictKeys axes = envelopeAxes)
    (h : unresolvedAxes axes = []) {p : Text × EnvelopeAxis} (hp : p ∈ axes) :
    p.2.state ≠ ("unresolved" : Text) := by
  intro hstate
  have hname : p.1 ∈ envelopeAxes := hkeys ▸ List.mem_map_of_mem hp
  have hget : dictGet p.1 axes = some p.2 := dictGet_of_mem (hkeys ▸ nodup_envelopeAxes) hp
  refine absurd (List.filter_eq_nil_iff.mp h p.1 hname) (not_not.mpr ?_)
  rw [isUnresolved, hget]
  exact decide_eq_true hstate

/-- What an accepted reply is. -/
structure Accepted (m : Machine) (r : Request) (readOnlyReview : Bool)
    (payload : List (Text × Value)) (axes : List (Text × EnvelopeAxis)) : Prop where
  keys : dictKeys axes = envelopeAxes
  axes : ∀ p ∈ axes, axisFromProposal m r p.1 (getValue p.1 payload) = .ok p.2 ∧
    p.2.state ≠ ("unresolved" : Text)
  review : readOnlyReview = true → grantsWrites payload = false

lemma accepted_of_parse {reply : Text} {sources : Sources} {task : TaskRecord}
    {readOnlyReview : Bool} {candidates : List Text}
    (h : parseResolverReply m reply sources task readOnlyReview = .ok (axes, candidates))
    (haccepted : unresolvedAxes axes = []) :
    ∃ payload, resolverPayload m reply = .ok payload ∧
      Accepted m (requestOf m sources task readOnlyReview) readOnlyReview payload axes := by
  obtain ⟨payload, hpayload, h⟩ := step_eq_ok.mp h
  obtain ⟨_, hreview, h⟩ := step_eq_ok.mp h
  obtain ⟨found, hfound, h⟩ := step_eq_ok.mp h
  obtain ⟨offers, -, h⟩ := step_eq_ok.mp h
  obtain ⟨rfl, -⟩ := Prod.mk.inj (return_eq_ok.mp h)
  obtain ⟨hkeys, hall⟩ := axesFrom_eq_ok hfound
  refine ⟨payload, hpayload, hkeys,
    fun p hp => ⟨hall p hp, resolved_of_unresolvedAxes hkeys haccepted hp⟩, fun hro => ?_⟩
  have hreview := demand_eq_ok.mp hreview
  simpa [hro] using hreview

lemma ne_policy {axis : Text} (hset : axis ∈ envelopeSetAxes) : axis ≠ envelopeEnumAxis := by
  have hnot : envelopeEnumAxis ∉ envelopeSetAxes := by decide
  exact fun heq => hnot (heq ▸ hset)

lemma write_mem : envelopeWriteAxis ∈ envelopeSetAxes := by decide

/-- A set axis of an accepted reply is resolved by what the reply offers for it. -/
lemma Accepted.resolved {readOnlyReview : Bool} (h : Accepted m r readOnlyReview payload axes)
    {axis : Text} (hset : axis ∈ envelopeSetAxes) :
    ∃ a raw quotes members, (axis, a) ∈ axes ∧ Offers (getValue axis payload) raw quotes ∧
      IsMembers raw members ∧ Resolved m r axis raw quotes a := by
  have hmem : axis ∈ dictKeys axes := by
    rw [h.keys]
    exact List.mem_append_left _ hset
  obtain ⟨⟨axis, a⟩, hp, rfl⟩ := List.mem_map.mp hmem
  have hne : axis ≠ envelopeEnumAxis := ne_policy hset
  obtain ⟨hfrom, hstate⟩ := h.axes _ hp
  obtain ⟨raw, quotes, members, hoffers, hmembers, hresolved⟩ :=
    axisFromProposal_set hne hfrom hstate
  exact ⟨a, raw, quotes, members, hp, hoffers, hmembers, hresolved⟩

end

section
variable {m : Machine} {readOnlyReview : Bool} {axes : List (Text × EnvelopeAxis)} {p : Place}
  {routing : List (Text × Value)}

lemma getValue_envelopePayload (hkeys : dictKeys axes = envelopeAxes) {q : Text × EnvelopeAxis}
    (hq : q ∈ axes) : getValue q.1 (envelopePayload axes p routing) =
      axisPayload (if q.1 = envelopeWriteAxis then
        ownedAxis (engineOwnedWriteTargets p routing) q.2 else q.2) := by
  have hnodup : (dictKeys (envelopePayload axes p routing)).Nodup := by
    have hdict : dictKeys (envelopePayload axes p routing) =
        ("schema_version" : Text) :: envelopeAxes := by
      rw [← hkeys]
      simp [envelopePayload, dictKeys]
    rw [hdict]
    decide
  rw [getValue, dictGet_of_mem hnodup (List.mem_cons_of_mem _ (List.mem_map_of_mem hq))]
  rfl

/-- A resolution with axes accepts a reply. -/
lemma resolveEnvelope_accepts {s : Answers} {sources : Sources} {task : TaskRecord}
    {resolution : EnvelopeResolution}
    (h : resolveEnvelope m s sources task readOnlyReview = .ok resolution)
    (haxes : resolution.axes = some axes) :
    ∃ reply candidates, s.invoke = .ok reply ∧
      parseResolverReply m reply (reviewSources sources readOnlyReview) task readOnlyReview =
        .ok (axes, candidates) ∧ unresolvedAxes axes = [] := by
  obtain ⟨_, -, h⟩ := step_eq_ok.mp h
  obtain ⟨_, -, h⟩ := step_eq_ok.mp h
  unfold resolutionOf at h
  split at h
  · obtain rfl := Except.ok.inj h
    cases haxes
  · cases h
  · next found candidates hparsed =>
    split_ifs at h with hresolved
    · obtain rfl := Except.ok.inj h
      obtain rfl := Option.some.inj haxes
      obtain ⟨reply, hreply, hparse⟩ := step_eq_ok.mp hparsed
      exact ⟨reply, candidates, hreply, hparse, hresolved⟩
    · cases hreason : envelopeStopReason s found candidates with
      | error e =>
          rw [hreason] at h
          cases h
      | ok reason =>
          rw [hreason] at h
          obtain rfl := Except.ok.inj h
          cases haxes

end

/-! ### A sample -/

/-- ASCII letters fold, and nobody has a home. -/
def asciiMachine : Machine where
  toPlatform := Execution.zeroPlatform
  casefold c := if 0x41 ≤ c.val ∧ c.val ≤ 0x5A then [Fin.ofNat _ (c.val + 0x20)] else [c]
  home _ := .ok none

def fixTask : TaskRecord where
  taskDescription := "Fix the parser in src/parser.py"
  taskTypeHint := "apply"
  scope := none
  externalDraft := none
  approvedSpec := none
  worktree := some ("/work" : Text)
  executionPlan := none
  reviewContext := none
  reviewSession := none

def fixRouting : List (Text × Value) :=
  [(("pattern" : Text), .str "codex_implement_claude_review"), ("stop_gate", .bool false)]

def fixPlace : Place := ⟨.ofText "/home", "fix", "request-1"⟩

/-- One axis of a reply. -/
def proposedAxis (axis state value evidence : Text) : Text :=
  "\"" ++ axis ++ "\": \x7b\"state\": \"" ++ state ++ "\", \"value\": " ++ value ++
    ", \"evidence\": " ++ evidence ++ ", \"detail\": \"\"\x7d"

/-- A reply that reads the change off the scope, and the one path off the text. -/
def fixReply : Text :=
  resolverBegin ++ "\x7b\"schema_version\": 1, " ++ join ", " [
    proposedAxis "semantic_change_surface" "semantically_silent" "[\"fix the parser\"]" "[]",
    proposedAxis "task_owned_write_targets" "declared" "[\"src/parser.py\"]"
      "[\"in src/parser.py\"]",
    proposedAxis "assurance_ceiling" "semantically_silent" "[]" "[]",
    proposedAxis "threat_model" "semantically_silent" "[]" "[]",
    proposedAxis "evidence_ceiling" "semantically_silent" "[]" "[]",
    proposedAxis "scope_expansion_policy" "semantically_silent" "\"user_decision\"" "[]"] ++
    "\x7d" ++ resolverEnd

def fixSurroundings : Surroundings where
  invoke := .ok fixReply
  guidance _ := .ok []
  duration := 0
  receipt := .ok ()
  profile := some (.error (.profileError "not loaded"))
  read _ := .error (.osError "no such file")
  enqueue := .ok ()

/-- The reply resolves every axis, and no text of the payload holds a marker. -/
lemma resolution_fix : ∃ resolution axes, resolveEnvelope asciiMachine fixSurroundings.toAnswers
    [("task text", fixTask.taskDescription)] fixTask false = .ok resolution ∧
    resolution.axes = some axes ∧
    ∀ t ∈ (Value.obj (envelopePayload axes fixPlace fixRouting)).strings,
      MarkerFree t ∧ Py.Encodable t := by
  have hsettled : ((resolveEnvelope asciiMachine fixSurroundings.toAnswers
      [("task text", fixTask.taskDescription)] fixTask false).toOption.any fun resolution =>
        resolution.axes.any fun axes =>
          (Value.obj (envelopePayload axes fixPlace fixRouting)).strings.all fun t =>
            decide (MarkerFree t ∧ Py.Encodable t)) = true := by
    decide +kernel
  cases hresolution : resolveEnvelope asciiMachine fixSurroundings.toAnswers
      [("task text", fixTask.taskDescription)] fixTask false with
  | error e =>
      rw [hresolution] at hsettled
      cases hsettled
  | ok resolution =>
      rw [hresolution, Except.toOption, Option.any_some] at hsettled
      cases haxes : resolution.axes with
      | none =>
          rw [haxes] at hsettled
          cases hsettled
      | some axes =>
          rw [haxes, Option.any_some, List.all_eq_true] at hsettled
          exact ⟨resolution, axes, rfl, haxes, fun t ht => of_decide_eq_true (hsettled t ht)⟩

/-- The reply is accepted. -/
lemma resolveEnvelope_fix : ∃ resolution, resolveEnvelope asciiMachine fixSurroundings.toAnswers
    [("task text", fixTask.taskDescription)] fixTask false = .ok resolution := by
  obtain ⟨resolution, axes, hresolution, -⟩ := resolution_fix
  exact ⟨resolution, hresolution⟩

end Intake

end AgentOrch
