import AgentOrch.Construction.GateFiles
import AgentOrch.Properties.YamlRoundTrip

/-!
# The records of a gate decision

What a decision makes of the record and the routing of a task comes back from their files, whatever
else stands in them.  An entry that was set is read as what it was set to.
-/

namespace AgentOrch

open Py Json

/-! ## Entries of a record -/

namespace Yaml

/-- What the value under a key comes back as. -/
def settledEntry (v : Value) : Value := if isHollow v then .obj [] else settled v

lemma settledPairs_eq_map (items : List (Text × Value)) :
    settledPairs items = items.map fun p => (p.1, settledEntry p.2) := by
  induction items with
  | nil => rfl
  | cons p items ih => exact congrArg _ ih

lemma settledEntry_obj (items : List (Text × Value)) :
    settledEntry (.obj items) = .obj (settledPairs items) := by
  cases items <;> rfl

lemma dictGet_settledPairs (key : Text) (items : List (Text × Value)) :
    dictGet key (settledPairs items) = (dictGet key items).map settledEntry := by
  induction items with
  | nil => rfl
  | cons p items ih =>
      obtain ⟨k, v⟩ := p
      rw [settledPairs, dictGet_cons, dictGet_cons, ih]
      split
      · rfl
      · rfl

lemma getValue_settledPairs (key : Text) (items : List (Text × Value)) :
    getValue key (settledPairs items) = settledEntry (getValue key items) := by
  rw [getValue, getValue, dictGet_settledPairs]
  cases dictGet key items <;> rfl

/-- A value that is written and read as it is, with `n` containers open at most. -/
structure Fit (rt : Runtime) (n : ℕ) (v : Value) : Prop where
  plain : Plain rt v
  keyed : v.wellKeyed = true
  depth : v.depth ≤ n

section
variable {rt : Runtime} {n : ℕ} {v : Value} {key : Text} {items : List (Text × Value)}

lemma plainPairs_iff : PlainPairs rt items ↔ ∀ p ∈ items, PlainKey p.1 ∧ Plain rt p.2 := by
  induction items with
  | nil => simp [PlainPairs]
  | cons p items ih => simp [PlainPairs, ih, and_assoc]

lemma depthPairs_le_iff : depthPairs items ≤ n ↔ ∀ p ∈ items, p.2.depth ≤ n := by
  induction items with
  | nil => simp [depthPairs]
  | cons p items ih => simp [depthPairs, ih]

lemma fit_null : Fit rt n .null := ⟨trivial, rfl, Nat.zero_le n⟩

lemma fit_str {t : Text} (h : PlainText t) : Fit rt n (.str t) := ⟨h, rfl, Nat.zero_le n⟩

lemma Fit.mono {k : ℕ} (h : Fit rt n v) (hn : n ≤ k) : Fit rt k v :=
  ⟨h.plain, h.keyed, h.depth.trans hn⟩

/-- A mapping fits when its entries do. -/
lemma fit_obj_iff : Fit rt (n + 1) (.obj items) ↔
    (dictKeys items).Nodup ∧ ∀ p ∈ items, PlainKey p.1 ∧ Fit rt n p.2 := by
  constructor
  · intro h
    have hplain := plainPairs_iff.mp h.plain
    have hkeyed := h.keyed
    rw [Value.wellKeyed, Bool.and_eq_true, decide_eq_true_eq] at hkeyed
    have hdepth := depthPairs_le_iff.mp (Nat.le_of_succ_le_succ h.depth)
    exact ⟨hkeyed.1, fun p hp => ⟨(hplain p hp).1, (hplain p hp).2,
      wellKeyedPairs_iff.mp hkeyed.2 p hp, hdepth p hp⟩⟩
  · rintro ⟨hnodup, hentries⟩
    refine ⟨plainPairs_iff.mpr fun p hp => ⟨(hentries p hp).1, (hentries p hp).2.plain⟩, ?_, ?_⟩
    · rw [Value.wellKeyed, Bool.and_eq_true, decide_eq_true_eq]
      exact ⟨hnodup, wellKeyedPairs_iff.mpr fun p hp => (hentries p hp).2.keyed⟩
    · exact Nat.succ_le_succ (depthPairs_le_iff.mpr fun p hp => (hentries p hp).2.depth)

lemma Fit.getValue (h : Fit rt (n + 1) (.obj items)) (key : Text) :
    Fit rt n (Json.getValue key items) := by
  rw [Json.getValue]
  cases hget : dictGet key items with
  | none => exact fit_null
  | some v => exact ((fit_obj_iff.mp h).2 _ (mem_of_dictGet hget)).2

lemma Fit.dictSet (h : Fit rt (n + 1) (.obj items)) (hkey : PlainKey key) (hv : Fit rt n v) :
    Fit rt (n + 1) (.obj (dictSet key v items)) := by
  obtain ⟨hnodup, hentries⟩ := fit_obj_iff.mp h
  refine fit_obj_iff.mpr ⟨nodup_dictSet hnodup, fun p hp => ?_⟩
  rcases mem_dictSet hp with hold | ⟨hk, hvalue⟩
  · exact hentries p hold
  · rw [hk, hvalue]
    exact ⟨hkey, hv⟩

end

/-! ## Entries that stay -/

section
variable {key : Text} {items : List (Text × Value)} {v : Value}

/-- What stands under a key comes back as it is. -/
def Stays (v : Value) : Prop := settledEntry v = v

lemma settledPairs_eq_self_iff : settledPairs items = items ↔ ∀ p ∈ items, Stays p.2 := by
  rw [settledPairs_eq_map]
  induction items with
  | nil => simp
  | cons p items ih =>
      rw [List.map_cons, List.cons.injEq, ih, List.forall_mem_cons]
      refine and_congr_left fun _ => ?_
      constructor
      · exact fun h => congrArg Prod.snd h
      · exact fun h => Prod.ext rfl h

lemma stays_obj_iff : Stays (.obj items) ↔ settledPairs items = items := by
  rw [Stays, settledEntry_obj, Value.obj.injEq]

lemma stays_getValue (h : settledPairs items = items) (key : Text) :
    Stays (getValue key items) := by
  rw [Stays, ← getValue_settledPairs, h]

lemma settledPairs_dictSet (h : settledPairs items = items) (hv : Stays v) :
    settledPairs (dictSet key v items) = dictSet key v items := by
  refine settledPairs_eq_self_iff.mpr fun p hp => ?_
  rcases mem_dictSet hp with hold | ⟨-, hvalue⟩
  · exact settledPairs_eq_self_iff.mp h p hold
  · rw [hvalue]
    exact hv

end

end Yaml

/-! ## The records a decision writes -/

namespace GateFiles

open Trajectory (optText)
open Yaml

section
variable {rt : Runtime} {n : ℕ} {home id : Text} {d : Decision}
  {task routing gate result : List (Text × Value)}

/-- The texts of the decision come back from a file. -/
structure Decision.IsPlain (d : Decision) : Prop where
  decision : PlainText d.decision
  reason : ∀ t, d.reason = some t → PlainText t
  decidedAt : PlainText d.decidedAt

/-- The keys of the decision and of what it sets. -/
def decisionKeys : List Text :=
  ["type", "task_id", "decision", "reason", "decided_at", "final_stage", "decision_artifact_path",
    "gate_status_before", "request_id", "request_path", "processed_result_path",
    "controller_task_id", "controller_status", "controller_lifecycle_stage", "stop_reason",
    "pattern", "profile", "executor", "reviewer", "route_source", "status", "decision_reason",
    "stage", "gate", "gate_decision"]

lemma plainKey_of_mem : ∀ key ∈ decisionKeys, PlainKey key := by decide

lemma fit_optText {t : Option Text} (h : ∀ s, t = some s → PlainText s) :
    Fit rt n (optText t) := by
  cases t with
  | none => exact fit_null
  | some s => exact fit_str (h s rfl)

lemma plainText_finalStage : PlainText d.finalStage := by
  unfold Decision.finalStage
  split
  · decide
  · decide

lemma dictKeys_summary : dictKeys (d.summary home id routing gate result) = decisionKeys.take 20 :=
  rfl

lemma fit_dictAt {key : Text} {items : List (Text × Value)} (h : Fit rt (n + 1) (.obj items))
    (key' : Text) : Fit rt n (getValue key' ((dictAt key items).getD [])) := by
  have hvalue := h.getValue key
  unfold dictAt
  cases hget : getValue key items with
  | obj found =>
      rw [hget] at hvalue
      cases n with
      | zero => exact absurd hvalue.depth (by simp [Value.depth])
      | succ n => exact (hvalue.getValue key').mono (Nat.le_succ n)
  | _ => exact fit_null

/-- The decision comes back as it was written. -/
lemma fit_summary (hd : d.IsPlain) (hid : PlainText id) (hpath : PlainText (decisionPath home id))
    (hrouting : Fit rt (n + 1) (.obj routing)) (hgate : Fit rt (n + 1) (.obj gate))
    (hresult : Fit rt (n + 1) (.obj result)) :
    Fit rt (n + 1) (.obj (d.summary home id routing gate result)) := by
  have hvalues : ∀ p ∈ d.summary home id routing gate result, Fit rt n p.2 := by
    have htype : PlainText "stop_gate_decision" := by decide
    simp only [Decision.summary, List.forall_mem_cons, List.not_mem_nil, false_imp_iff,
      implies_true, and_true]
    exact ⟨fit_str htype, fit_str hid, fit_str hd.decision, fit_optText hd.reason,
      fit_str hd.decidedAt, fit_str plainText_finalStage, fit_str hpath, hgate.getValue _,
      hresult.getValue _, fit_dictAt hrouting _, hresult.getValue _, hresult.getValue _,
      hresult.getValue _, hresult.getValue _, hresult.getValue _, hrouting.getValue _,
      fit_dictAt hrouting _, hrouting.getValue _, hrouting.getValue _, hrouting.getValue _⟩
  refine fit_obj_iff.mpr ⟨?_, fun p hp => ⟨?_, hvalues p hp⟩⟩
  · rw [dictKeys_summary]
    decide
  · refine plainKey_of_mem _ (List.take_subset 20 _ ?_)
    rw [← @dictKeys_summary home id d routing gate result]
    exact List.mem_map_of_mem hp

/-- A fold of entries that fit. -/
lemma fit_foldl {entries : List (Text × Value)} :
    ∀ {items : List (Text × Value)}, (∀ p ∈ entries, PlainKey p.1 ∧ Fit rt n p.2) →
    Fit rt (n + 1) (.obj items) →
    Fit rt (n + 1) (.obj (entries.foldl (fun items p => dictSet p.1 p.2 items) items)) := by
  induction entries with
  | nil => exact fun _ h => h
  | cons p entries ih =>
      intro items hentries h
      have hp := hentries p List.mem_cons_self
      exact ih (fun q hq => hentries q (List.mem_cons_of_mem p hq)) (h.dictSet hp.1 hp.2)

lemma fit_decidedGate (hd : d.IsPlain) (hpath : PlainText (decisionPath home id))
    (hgate : Fit rt (n + 1) (.obj gate)) :
    Fit rt (n + 1) (.obj (d.decidedGate home id gate)) := by
  refine fit_foldl ?_ hgate
  have hkeys := plainKey_of_mem
  simp only [decisionKeys, List.forall_mem_cons, List.not_mem_nil, false_imp_iff, implies_true,
    and_true] at hkeys
  obtain ⟨-, -, hdecision, -, hdecided, -, hartifact, -, -, -, -, -, -, -, -, -, -, -, -, -, hstatus,
    hreason, hstage, -⟩ := hkeys
  have hword : PlainText "decided" := by decide
  simp only [Decision.updates, List.forall_mem_cons, List.not_mem_nil, false_imp_iff,
    implies_true, and_true]
  exact ⟨⟨hstatus, fit_str hword⟩, ⟨hdecision, fit_str hd.decision⟩,
    ⟨hdecided, fit_str hd.decidedAt⟩, ⟨hreason, fit_optText hd.reason⟩,
    ⟨hstage, fit_str plainText_finalStage⟩, hartifact, fit_str hpath⟩

lemma plainKeys_set : PlainKey "stage" ∧ PlainKey "gate" ∧ PlainKey "gate_decision" := by decide

section
variable (hd : d.IsPlain) (hid : PlainText id) (hpath : PlainText (decisionPath home id))
  (hrouting : Fit rt (n + 1) (.obj routing)) (hgate : Fit rt (n + 1) (.obj gate))
  (hresult : Fit rt (n + 1) (.obj result))
include hd hid hpath hrouting hgate hresult

/-- The routing with the decision comes back from its file. -/
lemma fit_decidedRouting :
    Fit rt (n + 2) (.obj (d.decidedRouting home id routing gate result)) :=
  ((hrouting.mono (Nat.le_succ _)).dictSet plainKeys_set.2.1
    (fit_decidedGate hd hpath hgate)).dictSet plainKeys_set.2.2
    (fit_summary hd hid hpath hrouting hgate hresult)

/-- The task record with the decision comes back from its file. -/
lemma fit_decidedTask (htask : Fit rt (n + 1) (.obj task)) :
    Fit rt (n + 2) (.obj (d.decidedTask home id task routing gate result)) :=
  (((htask.mono (Nat.le_succ _)).dictSet plainKeys_set.1 (fit_str plainText_finalStage)).dictSet
    plainKeys_set.2.1 (fit_decidedGate hd hpath hgate)).dictSet plainKeys_set.2.2
    (fit_summary hd hid hpath hrouting hgate hresult)

end

/-! ## What is read of them -/

lemma getValue_dictSet_self (key : Text) (v : Value) (items : List (Text × Value)) :
    getValue key (dictSet key v items) = v := by
  rw [getValue, dictGet_dictSet, if_pos rfl]
  rfl

lemma getValue_dictSet_of_ne {key k : Text} (h : key ≠ k) (v : Value)
    (items : List (Text × Value)) : getValue k (dictSet key v items) = getValue k items := by
  rw [getValue, dictGet_dictSet, if_neg h]
  rfl

lemma getValue_decidedGate : getValue "status" (d.decidedGate home id gate) = .str "decided" ∧
    getValue "decision" (d.decidedGate home id gate) = .str d.decision ∧
    getValue "stage" (d.decidedGate home id gate) = .str d.finalStage ∧
    getValue "type" (d.decidedGate home id gate) = getValue "type" gate := by
  unfold Decision.decidedGate Decision.updates
  simp (disch := decide) only [List.foldl_cons, List.foldl_nil, getValue_dictSet_self,
    getValue_dictSet_of_ne, and_self]

lemma getValue_decidedRouting :
    getValue "gate" (d.decidedRouting home id routing gate result) =
      .obj (d.decidedGate home id gate) ∧
    getValue "gate_decision" (d.decidedRouting home id routing gate result) =
      .obj (d.summary home id routing gate result) ∧
    ∀ key : Text, key ≠ "gate" → key ≠ "gate_decision" →
      getValue key (d.decidedRouting home id routing gate result) = getValue key routing := by
  refine ⟨?_, ?_, fun key hgate hdecision => ?_⟩
  · rw [Decision.decidedRouting, getValue_dictSet_of_ne (by decide), getValue_dictSet_self]
  · rw [Decision.decidedRouting, getValue_dictSet_self]
  · rw [Decision.decidedRouting, getValue_dictSet_of_ne hdecision.symm,
      getValue_dictSet_of_ne hgate.symm]

lemma getValue_decidedTask :
    getValue "gate" (d.decidedTask home id task routing gate result) =
      .obj (d.decidedGate home id gate) ∧
    getValue "gate_decision" (d.decidedTask home id task routing gate result) =
      .obj (d.summary home id routing gate result) ∧
    getValue "stage" (d.decidedTask home id task routing gate result) = .str d.finalStage ∧
    ∀ key : Text, key ≠ "gate" → key ≠ "gate_decision" → key ≠ "stage" →
      getValue key (d.decidedTask home id task routing gate result) = getValue key task := by
  refine ⟨?_, ?_, ?_, fun key hgate hdecision hstage => ?_⟩
  · rw [Decision.decidedTask, getValue_dictSet_of_ne (by decide), getValue_dictSet_self]
  · rw [Decision.decidedTask, getValue_dictSet_self]
  · rw [Decision.decidedTask, getValue_dictSet_of_ne (by decide),
      getValue_dictSet_of_ne (by decide), getValue_dictSet_self]
  · rw [Decision.decidedTask, getValue_dictSet_of_ne hdecision.symm,
      getValue_dictSet_of_ne hgate.symm, getValue_dictSet_of_ne hstage.symm]

end

end GateFiles

end AgentOrch
