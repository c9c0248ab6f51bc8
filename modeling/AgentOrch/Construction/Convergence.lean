import AgentOrch.Construction.Exceptions

/-!
# Convergence records

A branching-stage run states which failure scenarios are still live.  The first such run files
a baseline; a later one also declares the partition against the prior live set and a verdict,
and both are recomputed before the verdict counts.

Sets of identities are lists read up to membership: `sameSet` is set equality, and a message
lists a set in sorted order.
-/

namespace AgentOrch

open Py Json

def convergenceBegin : Text := "<!--ORCH-CONVERGENCE-BEGIN-->"

def convergenceEnd : Text := "<!--ORCH-CONVERGENCE-END-->"

def convergenceFirstKeys : List Text := ["live", "resolved"]

def convergenceRepeatKeys : List Text := ["live", "resolved", "new", "repeated", "verdict"]

inductive Verdict
  | improved
  | stalled
  | oscillating
  deriving DecidableEq

namespace Verdict

def text : Verdict → Text
  | improved => "improved"
  | stalled => "stalled"
  | oscillating => "oscillating"

def ofText (t : Text) : Option Verdict :=
  if t = text improved then some improved
  else if t = text stalled then some stalled
  else if t = text oscillating then some oscillating
  else none

end Verdict

/-- What a repeat review declares beyond the two sets every record carries. -/
structure Scored where
  new : List Text
  repeated : List Text
  verdict : Verdict
  deriving DecidableEq

structure ConvergenceRecord where
  live : List Text
  resolved : List Text
  scored : Option Scored
  deriving DecidableEq

/-! ## Reading a record -/

/-- A list of strings none of which is blank. -/
def identityItems : List Value → Option (List Text)
  | [] => some []
  | .str s :: rest => if isBlank s then none else (identityItems rest).map (s :: ·)
  | _ :: _ => none

/-- `_convergence_identities`. -/
def convergenceIdentities (record : List (Text × Value)) (name : Text) :
    Except Exc (List Text) :=
  match dictGet name record with
  | some (.arr items) =>
    match identityItems items with
    | some names => .ok names
    | none => .error (.convergenceError ("convergence " ++ name ++
        " must be a list of non-empty failure-scenario identities"))
  | _ => .error (.convergenceError ("convergence " ++ name ++
      " must be a list of non-empty failure-scenario identities"))

def declaredVerdict (record : List (Text × Value)) : Option Verdict :=
  match dictGet "verdict" record with
  | some (.str s) => Verdict.ofText s
  | _ => none

def readRepeatRecord (rt : Runtime) (record : List (Text × Value)) :
    Except Exc ConvergenceRecord := do
  require (keysAre record convergenceRepeatKeys) (.convergenceError
    ("repeat review convergence keys must be exactly " ++
      reprList rt.unicode (sorted convergenceRepeatKeys) ++ ", got " ++
      reprList rt.unicode (sorted (dictKeys record))))
  match declaredVerdict record with
  | none => throw (.convergenceError
      ("unknown convergence verdict " ++ reprOption rt (dictGet "verdict" record)))
  | some verdict =>
    let live ← convergenceIdentities record "live"
    let resolved ← convergenceIdentities record "resolved"
    let new ← convergenceIdentities record "new"
    let repeated ← convergenceIdentities record "repeated"
    return ⟨live, resolved, some ⟨new, repeated, verdict⟩⟩

def readFirstRecord (rt : Runtime) (record : List (Text × Value)) :
    Except Exc ConvergenceRecord := do
  require (("verdict" : Text) ∉ dictKeys record)
    (.convergenceError "a first branching run must not carry a verdict")
  require (keysAre record convergenceFirstKeys) (.convergenceError
    ("first branching run convergence keys must be exactly " ++
      reprList rt.unicode (sorted convergenceFirstKeys) ++ ", got " ++
      reprList rt.unicode (sorted (dictKeys record))))
  let resolved ← convergenceIdentities record "resolved"
  require (resolved = [])
    (.convergenceError "a first branching run must record an empty resolved set")
  let live ← convergenceIdentities record "live"
  return ⟨live, resolved, none⟩

/-- The checks on a record once its JSON is read; `none` takes whichever shape was written. -/
def readRecord (rt : Runtime) (isRepeat : Option Bool) (value : Value) :
    Except Exc ConvergenceRecord :=
  match value with
  | .obj record =>
    if isRepeat.getD (("verdict" : Text) ∈ dictKeys record) then readRepeatRecord rt record
    else readFirstRecord rt record
  | _ => .error (.convergenceError "convergence record must be a JSON object")

/-- The text between the two markers, which must be exactly one pair. -/
def convergenceBody (output : Text) : Except Exc Text :=
  let begins := count convergenceBegin output
  let ends := count convergenceEnd output
  if begins = 0 ∧ ends = 0 then .error (.convergenceError "convergence record missing")
  else if begins ≠ 1 ∨ ends ≠ 1 then .error (.convergenceError
    ("convergence marker count is not exactly one pair (begin=" ++ decimal begins ++ ", end=" ++
      decimal ends ++ ")"))
  else match between convergenceBegin convergenceEnd output with
    | none => .error (.convergenceError "convergence end marker precedes its begin marker")
    | some body => .ok body

/-- `extract_convergence`.  Only a `JSONDecodeError` becomes a `ConvergenceError`. -/
def extractConvergence (rt : Runtime) (output : Text) (isRepeat : Option Bool) :
    Except Exc ConvergenceRecord := do
  let body ← convergenceBody output
  match rt.loads false body with
  | .error (.jsonDecodeError m) =>
    throw (.convergenceError ("convergence record is not valid JSON: " ++ m))
  | .error e => throw e
  | .ok value => readRecord rt isRepeat value

/-! ## Scoring a record -/

/-- Set equality. -/
def sameSet (s t : List Text) : Bool := s.all (· ∈ t) && t.all (· ∈ s)

/-- The section 1.7 rule: total, mutually exclusive, evaluated in order. -/
def convergenceVerdict (priorLive historicalResolved current : List Text) : Verdict :=
  if current.any (· ∈ historicalResolved) then .oscillating
  else
    let new := current.filter (· ∉ priorLive)
    if (current.all (· ∈ priorLive) && !priorLive.all (· ∈ current)) && new.isEmpty then .improved
    else .stalled

/-- `declared != computed` for one part of the partition. -/
def checkPart (rt : Runtime) (name : Text) (declared computed : List Text) : Except Exc Unit :=
  require (sameSet declared computed) (.convergenceError
    ("declared " ++ name ++ "=" ++ reprList rt.unicode (sorted declared) ++
      " contradicts computed " ++ name ++ "=" ++ reprList rt.unicode (sorted computed)))

/-- `validate_convergence`: the declared partition and verdict must be the computed ones. -/
def validateConvergence (rt : Runtime) (record : ConvergenceRecord)
    (priorLive historicalResolved : List Text) : Except Exc Verdict :=
  match record.scored with
  | none => .error (.keyError "'repeated'")
  | some scored => do
    let current := record.live
    checkPart rt "resolved" record.resolved (priorLive.filter (· ∉ current))
    checkPart rt "repeated" scored.repeated (priorLive.filter (· ∈ current))
    checkPart rt "new" scored.new (current.filter (· ∉ priorLive))
    let verdict := convergenceVerdict priorLive historicalResolved current
    require (scored.verdict = verdict) (.convergenceError
      ("declared verdict " ++ repr rt.unicode scored.verdict.text ++
        " contradicts computed verdict " ++ repr rt.unicode verdict.text))
    return verdict

/-! ## What extraction returns -/

section
variable {rt : Runtime}

lemma convergenceBegin_ne_nil : convergenceBegin ≠ [] := by decide

lemma convergenceEnd_ne_nil : convergenceEnd ≠ [] := by decide

lemma convergenceBegin_lineFree : LineFree convergenceBegin := by decide

lemma convergenceEnd_lineFree : LineFree convergenceEnd := by decide

/-- The body of a record is cut out of a text-mode read as it was cut out of the text. -/
lemma convergenceBody_universalNewlines (t : Text) :
    convergenceBody (universalNewlines t) = (convergenceBody t).map universalNewlines := by
  unfold convergenceBody
  rw [count_universalNewlines convergenceBegin_lineFree convergenceBegin_ne_nil,
    count_universalNewlines convergenceEnd_lineFree convergenceEnd_ne_nil,
    between_universalNewlines convergenceBegin_lineFree convergenceBegin_ne_nil
      convergenceEnd_lineFree convergenceEnd_ne_nil]
  dsimp only
  split_ifs
  · rfl
  · rfl
  · cases between convergenceBegin convergenceEnd t <;> rfl

lemma mem_keys_of_readRepeat {record : List (Text × Value)} {r : ConvergenceRecord}
    (h : readRepeatRecord rt record = .ok r) :
    ("verdict" : Text) ∈ dictKeys record ∧ ∃ s, r.scored = some s := by
  obtain ⟨_, hkeys, h⟩ := bind_eq_ok.mp h
  refine ⟨(keysAre_iff.mp (require_eq_ok.mp hkeys) _).mpr (by decide), ?_⟩
  split at h
  · cases h
  · obtain ⟨live, -, h⟩ := bind_eq_ok.mp h
    obtain ⟨resolved, -, h⟩ := bind_eq_ok.mp h
    obtain ⟨new, -, h⟩ := bind_eq_ok.mp h
    obtain ⟨repeated, -, h⟩ := bind_eq_ok.mp h
    cases h
    exact ⟨_, rfl⟩

lemma readFirst_spec {record : List (Text × Value)} {r : ConvergenceRecord}
    (h : readFirstRecord rt record = .ok r) :
    ("verdict" : Text) ∉ dictKeys record ∧ r.scored = none ∧ r.resolved = [] := by
  obtain ⟨_, hkeys, h⟩ := bind_eq_ok.mp h
  refine ⟨by simpa using hkeys, ?_⟩
  obtain ⟨-, -, h⟩ := bind_eq_ok.mp h
  obtain ⟨resolved, -, h⟩ := bind_eq_ok.mp h
  obtain ⟨_, hempty, h⟩ := bind_eq_ok.mp h
  obtain ⟨live, -, h⟩ := bind_eq_ok.mp h
  cases h
  exact ⟨rfl, by simpa using hempty⟩

/-- A value read under a required shape has that shape, and reads the same without one. -/
lemma readRecord_some {value : Value} {b : Bool} {r : ConvergenceRecord}
    (h : readRecord rt (some b) value = .ok r) :
    readRecord rt none value = .ok r ∧ (r.scored.isSome = b) ∧ (b = false → r.resolved = []) := by
  cases value with
  | obj record =>
      cases b with
      | true =>
          simp only [readRecord, Option.getD_some, if_true] at h
          obtain ⟨hkey, s, hs⟩ := mem_keys_of_readRepeat h
          simp [readRecord, hkey, h, hs]
      | false =>
          simp only [readRecord, Option.getD_some, Bool.false_eq_true, if_false] at h
          obtain ⟨hkey, hs, hr⟩ := readFirst_spec h
          simp [readRecord, hkey, h, hs, hr]
  | _ => cases h

/-- Without a required shape, a value reads under the shape it has. -/
lemma readRecord_none {value : Value} {r : ConvergenceRecord}
    (h : readRecord rt none value = .ok r) :
    readRecord rt (some r.scored.isSome) value = .ok r := by
  cases value with
  | obj record =>
      by_cases hkey : ("verdict" : Text) ∈ dictKeys record
      · simp only [readRecord, Option.getD_none, hkey, decide_true, if_true] at h
        obtain ⟨-, s, hs⟩ := mem_keys_of_readRepeat h
        simpa [readRecord, hs] using h
      · simp only [readRecord, Option.getD_none, hkey, decide_false, Bool.false_eq_true,
          if_false] at h
        obtain ⟨-, hs, -⟩ := readFirst_spec h
        simpa [readRecord, hs] using h
  | _ => cases h

/-- What a text with a record consists of. -/
lemma extractConvergence_ok {t : Text} {shape : Option Bool} {r : ConvergenceRecord} :
    extractConvergence rt t shape = .ok r ↔ ∃ body value, convergenceBody t = .ok body ∧
      rt.loads false body = .ok value ∧ readRecord rt shape value = .ok r := by
  unfold extractConvergence
  rw [bind_eq_ok]
  refine exists_congr fun body => ?_
  cases hloads : rt.loads false body with
  | ok value => simp
  | error e => cases e <;> simp [throw, throwThe, MonadExceptOf.throw]

/-- A text has the records that are read from it in text mode. -/
lemma extractConvergence_newlines {t : Text} {shape : Option Bool} {r : ConvergenceRecord} :
    extractConvergence rt (universalNewlines t) shape = .ok r ↔
      extractConvergence rt t shape = .ok r := by
  have hloads : ∀ body value, rt.loads false (universalNewlines body) = .ok value ↔
      rt.loads false body = .ok value := by
    intro body value
    unfold Runtime.loads
    rw [loads_universalNewlines]
    cases Json.loads ⟨rt.loadsDepth, false⟩ body with
    | ok v => rfl
    | error e => cases e <;> simp
  rw [extractConvergence_ok, extractConvergence_ok, convergenceBody_universalNewlines]
  constructor
  · rintro ⟨body', value, hbody, hvalue, hrecord⟩
    cases hcut : convergenceBody t with
    | error e =>
        rw [hcut] at hbody
        cases hbody
    | ok body =>
        rw [hcut] at hbody
        cases hbody
        exact ⟨body, value, rfl, (hloads body value).mp hvalue, hrecord⟩
  · rintro ⟨body, value, hbody, hvalue, hrecord⟩
    rw [hbody]
    exact ⟨_, value, rfl, (hloads body value).mpr hvalue, hrecord⟩

/-- A record read under a required shape has that shape, and is read without one. -/
lemma extractConvergence_some {t : Text} {b : Bool} {r : ConvergenceRecord}
    (h : extractConvergence rt t (some b) = .ok r) :
    extractConvergence rt t none = .ok r ∧ r.scored.isSome = b ∧
      (b = false → r.resolved = []) := by
  obtain ⟨body, value, hbody, hvalue, hrecord⟩ := extractConvergence_ok.mp h
  obtain ⟨hnone, hshape⟩ := readRecord_some hrecord
  exact ⟨extractConvergence_ok.mpr ⟨body, value, hbody, hvalue, hnone⟩, hshape⟩

/-- A record read without a required shape is read under the shape it has. -/
lemma extractConvergence_none {t : Text} {r : ConvergenceRecord}
    (h : extractConvergence rt t none = .ok r) :
    extractConvergence rt t (some r.scored.isSome) = .ok r := by
  obtain ⟨body, value, hbody, hvalue, hrecord⟩ := extractConvergence_ok.mp h
  exact extractConvergence_ok.mpr ⟨body, value, hbody, hvalue, readRecord_none hrecord⟩

/-- An accepted record is found again by the reader of sealed runs, which takes either shape
and sees the text after a text-mode read. -/
theorem extractConvergence_reread {t : Text} {b : Bool} {r : ConvergenceRecord}
    (h : extractConvergence rt t (some b) = .ok r) :
    extractConvergence rt (universalNewlines t) none = .ok r ∧ r.scored.isSome = b ∧
      (b = false → r.resolved = []) := by
  obtain ⟨hnone, hshape⟩ := extractConvergence_some h
  exact ⟨extractConvergence_newlines.mpr hnone, hshape⟩

end

end AgentOrch
