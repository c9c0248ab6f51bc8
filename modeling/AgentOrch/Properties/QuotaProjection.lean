import AgentOrch.Construction.Kanban.Observation
import AgentOrch.Framework.Rising
import AgentOrch.Properties.CardJournal
import Mathlib.Data.Option.Basic

/-!
# The quota projection moves forward

An accepted attempt is later than every attempt accepted before it, and a good one also observed
later.  So the row of the table holds the status of the last accepted attempt next to the
observation of the last good one, whatever failed, was replayed or came late in between.  The row
satisfies the constraints of the table and both validations of the reader.
-/

namespace AgentOrch

open Py Json

namespace Kanban

/-! ## The accepted attempts -/

/-- The values of an attempt that a call has accepted for the first time. -/
def acceptedRow (pf : Platform) (db : Db) (call : Call) : Option ObservationRow :=
  match Verb.ofValue (getValue "command" call.request.items),
    getValue "payload" call.request.items, handleRequest pf call.env db call.request with
  | some .quotaCliAttempt, .obj payload, .ok (out, _) =>
    if out.result = .accepted ∧ out.replayed = false then excludedRow payload else none
  | _, _, _ => none

/-- The attempts a sequence of calls has accepted, in order. -/
def acceptedRows (pf : Platform) : Db → List Call → List ObservationRow
  | _, [] => []
  | db, call :: rest =>
    (acceptedRow pf db call).toList ++ acceptedRows pf (serve pf db call) rest

/-- The last attempt that succeeded. -/
def lastGood (attempts : List ObservationRow) : Option ObservationRow :=
  (attempts.filter fun r => r.outcome = ("ok" : Text)).getLast?

/-- The status of the last attempt, next to the observation of the last good one. -/
def latest (attempts : List ObservationRow) : Option ObservationRow :=
  attempts.getLast?.map fun last =>
    { last with
      observedAtMs := (lastGood attempts).bind ObservationRow.observedAtMs
      remainingPercent := (lastGood attempts).bind ObservationRow.remainingPercent
      resetAtMs := (lastGood attempts).bind ObservationRow.resetAtMs }

/-- What a reader should be shown after these attempts. -/
def projected (attempts : List ObservationRow) : Projection where
  available := true
  observation := (lastGood attempts).map fun r =>
    ⟨columnValue r.observedAtMs, columnValue r.remainingPercent, 10080, columnValue r.resetAtMs⟩
  attempt := attempts.getLast?.map fun r => ⟨1, r.attemptedAtMs, r.outcome, r.error⟩

/-! ## Sound rows -/

/-- A reading of one week, observed no later than the attempt. -/
structure QuotaReading.Sound (attemptedAtMs : ℤ) (r : QuotaReading) : Prop where
  positive : 1 ≤ r.observedAtMs
  observed : r.observedAtMs ≤ attemptedAtMs
  window : r.observedAtMs < r.resetAtMs ∧ r.resetAtMs ≤ r.observedAtMs + weekMs
  reset : r.resetAtMs ≤ 253402300799999
  remaining : 0 ≤ r.remainingPercent ∧ r.remainingPercent ≤ 100

/-- A row with a legal status, a reading where it succeeded, and a sound one where there is any. -/
structure QuotaObservation.Sound (row : QuotaObservation) : Prop where
  attempted : 1 ≤ row.attemptedAtMs ∧ row.attemptedAtMs ≤ 253402300799999
  error : ∀ e, row.error = some e → e ∈ attemptErrors
  succeeded : row.error = none → row.reading.isSome = true
  reading : ∀ r, row.reading = some r → r.Sound row.attemptedAtMs

section
variable {payload : List (Text × Value)} {row attempt : QuotaObservation}

lemma integerIn_eq_some {lo hi n : ℤ} {v : Value} :
    integerIn lo hi v = some n ↔ v = .int n ∧ lo ≤ n ∧ n ≤ hi := by
  cases v with
  | int m =>
      rw [integerIn, Value.int.injEq]
      constructor
      · intro h
        split_ifs at h with hrange
        obtain rfl := Option.some.inj h
        exact ⟨rfl, hrange⟩
      · rintro ⟨rfl, hrange⟩
        rw [if_pos hrange]
  | _ => simp [integerIn]

lemma eq_of_eqv_str {v : Value} {t : Text} (h : v.eqv (.str t) = true) : v = .str t := by
  cases v with
  | str s => rw [Value.eqv, beq_iff_eq] at h; rw [h]
  | _ => simp [Value.eqv] at h

lemma eq_of_eqv_null {v : Value} (h : v.eqv .null = true) : v = .null := by
  cases v with
  | null => rfl
  | _ => simp [Value.eqv] at h

/-- An attempt that failed: its error is one of the list, and nothing is read. -/
structure Failed (payload : List (Text × Value)) (attempt : QuotaObservation) : Prop where
  attempted : getValue "attempted_at_ms" payload = .int attempt.attemptedAtMs
  range : 1 ≤ attempt.attemptedAtMs ∧ attempt.attemptedAtMs ≤ 253402300799999
  outcome : getValue "outcome" payload = .str "failed"
  error : ∃ e ∈ attemptErrors, getValue "error" payload = .str e ∧ attempt.error = some e
  reading : attempt.reading = none

/-- An attempt that succeeded, with its reading. -/
structure Succeeded (payload : List (Text × Value)) (attempt : QuotaObservation)
    (r : QuotaReading) : Prop where
  attempted : getValue "attempted_at_ms" payload = .int attempt.attemptedAtMs
  range : 1 ≤ attempt.attemptedAtMs ∧ attempt.attemptedAtMs ≤ 253402300799999
  outcome : getValue "outcome" payload = .str "ok"
  error : getValue "error" payload = .null ∧ attempt.error = none
  reading : attempt.reading = some r
  observed : getValue "observed_at_ms" payload = .int r.observedAtMs
  remaining : getValue "remaining_percent" payload = .int r.remainingPercent
  reset : getValue "reset_at_ms" payload = .int r.resetAtMs
  sound : r.Sound attempt.attemptedAtMs

/-- What is validated failed, or succeeded with a reading. -/
lemma validateAttempt_cases (h : validateAttempt payload = some attempt) :
    Failed payload attempt ∨ ∃ r, Succeeded payload attempt r := by
  simp only [validateAttempt, timestamp, Option.bind_eq_bind, Option.bind_eq_some_iff] at h
  obtain ⟨-, -, -, -, attempted, hattempted, h⟩ := h
  obtain ⟨hattempted, hrange⟩ := integerIn_eq_some.mp hattempted
  split at h
  · rename_i houtcome
    simp only [Option.bind_eq_some_iff] at h
    obtain ⟨-, -, error, herror, h⟩ := h
    obtain ⟨herror, hmem⟩ := textThat_eq_some herror
    obtain rfl := Option.some.inj h
    exact .inl ⟨hattempted, hrange, eq_of_eqv_str houtcome,
      ⟨error, of_decide_eq_true hmem, herror, rfl⟩, rfl⟩
  · simp only [Option.bind_eq_some_iff, Option.guard_eq_some', integerIn_eq_some] at h
    obtain ⟨-, houtcome, -, -, -, herror, observed, ⟨hobserved, hpositive⟩, reset,
      ⟨hreset, -, hmaximum⟩, -, hle, -, hwindow, remaining, ⟨hremaining, hpercent⟩, h⟩ := h
    obtain rfl := Option.some.inj h
    exact .inr ⟨⟨observed, remaining, reset⟩, hattempted, hrange, eq_of_eqv_str houtcome,
      ⟨eq_of_eqv_null herror, rfl⟩, rfl, hobserved, hremaining, hreset,
      ⟨hpositive.1, hle, hwindow, hmaximum, hpercent⟩⟩

/-- What the validated attempts have in common. -/
structure QuotaObservation.IsAttempt (attempt : QuotaObservation) : Prop where
  sound : attempt.Sound
  alone : attempt.error.isSome = true → attempt.reading = none

lemma Failed.isAttempt (h : Failed payload attempt) : attempt.IsAttempt := by
  obtain ⟨e, hmem, -, herror⟩ := h.error
  refine ⟨⟨h.range, ?_, ?_, ?_⟩, fun _ => h.reading⟩
  · intro e' he'
    rw [herror] at he'
    exact Option.some.inj he' ▸ hmem
  · intro hnone
    exact absurd (herror ▸ hnone) (by simp)
  · intro r hr
    exact absurd (h.reading ▸ hr) (by simp)

lemma Succeeded.isAttempt {r : QuotaReading} (h : Succeeded payload attempt r) :
    attempt.IsAttempt := by
  refine ⟨⟨h.range, ?_, ?_, ?_⟩, ?_⟩
  · intro e he
    exact absurd (h.error.2 ▸ he) (by simp)
  · intro _
    rw [h.reading]
    rfl
  · intro r' hr'
    rw [h.reading] at hr'
    exact Option.some.inj hr' ▸ h.sound
  · intro herror
    exact absurd (h.error.2 ▸ herror) (by simp)

lemma isAttempt_of_validate (h : validateAttempt payload = some attempt) : attempt.IsAttempt := by
  rcases validateAttempt_cases h with hfailed | ⟨r, hok⟩
  · exact hfailed.isAttempt
  · exact hok.isAttempt

/-- The values a validated attempt inserts are the columns of its row. -/
lemma excludedRow_of_validate (h : validateAttempt payload = some attempt) :
    excludedRow payload = some attempt.columns := by
  rcases validateAttempt_cases h with hfailed | ⟨r, hok⟩
  · obtain ⟨e, -, hvalue, herror⟩ := hfailed.error
    have hne : ("failed" : Text) ≠ ("ok" : Text) := by decide
    simp [excludedRow, QuotaObservation.columns, hfailed.attempted, hfailed.outcome, hvalue, herror,
      hfailed.reading, integer?, textThat, nullableThat, hne]
  · simp [excludedRow, QuotaObservation.columns, hok.attempted, hok.outcome, hok.error, hok.reading,
      hok.observed, hok.remaining, hok.reset, integer?, textThat, nullableThat]

/-! ## The validator accepts what it is given back -/

lemma validateAttempt_of_failed (hactor : getValue "actor" payload = .str "quota-updater")
    (hsource : getValue "source" payload = .str "codex-cli")
    (hkeys : keysAre payload attemptKeys = true) (h : Failed payload attempt) :
    (validateAttempt payload).isSome = true := by
  obtain ⟨e, hmem, hvalue, -⟩ := h.error
  have hattempted := integerIn_eq_some.mpr ⟨h.attempted, h.range⟩
  simp [validateAttempt, timestamp, hactor, hsource, hattempted, h.outcome, hkeys, hvalue, hmem,
    Value.eqv, textThat]

lemma validateAttempt_of_succeeded (hactor : getValue "actor" payload = .str "quota-updater")
    (hsource : getValue "source" payload = .str "codex-cli")
    (hkeys : keysAre payload (attemptKeys ++ readingKeys) = true) {r : QuotaReading}
    (h : Succeeded payload attempt r) : (validateAttempt payload).isSome = true := by
  have hattempted := integerIn_eq_some.mpr ⟨h.attempted, h.range⟩
  obtain ⟨hpositive, hle, hwindow, hmaximum, -⟩ := h.sound
  have hobserved := integerIn_eq_some.mpr ⟨h.observed, hpositive, hle.trans h.range.2⟩
  have hreset := integerIn_eq_some.mpr
    ⟨h.reset, (hpositive.trans_lt hwindow.1).le, hmaximum⟩
  have hremaining := integerIn_eq_some.mpr ⟨h.remaining, h.sound.remaining⟩
  have houtcome : (("ok" : Text) == ("failed" : Text)) = false := by decide
  simp [validateAttempt, timestamp, hactor, hsource, hattempted, h.outcome, hkeys, h.error.1,
    Value.eqv, houtcome, hobserved, hreset, hremaining, hle, hwindow]

/-! ## What the reader makes of a sound row -/

/-- The items of an attempt that failed. -/
def failedItems (attemptedAtMs : ℤ) (error : Text) : List (Text × Value) :=
  [(("actor" : Text), .str "quota-updater"), ("source", .str "codex-cli"),
    ("attempted_at_ms", .int attemptedAtMs), ("outcome", .str "failed"), ("error", .str error)]

lemma validateAttempt_failedItems {attemptedAtMs : ℤ} {e : Text}
    (hrange : 1 ≤ attemptedAtMs ∧ attemptedAtMs ≤ 253402300799999) (hmem : e ∈ attemptErrors) :
    (validateAttempt (failedItems attemptedAtMs e)).isSome = true := by
  have h : Failed (failedItems attemptedAtMs e) ⟨attemptedAtMs, some e, none⟩ :=
    ⟨rfl, hrange, rfl, ⟨e, hmem, rfl, rfl⟩, rfl⟩
  exact validateAttempt_of_failed rfl rfl rfl h

lemma attemptItems_of_error {e : Text} (herror : row.error = some e) :
    attemptItems row.columns = failedItems row.attemptedAtMs e := by
  have hne : ("failed" : Text) ≠ ("ok" : Text) := by decide
  simp [attemptItems, QuotaObservation.columns, herror, hne, failedItems]

/-- The items of an attempt that succeeded with this reading. -/
def succeededItems (attemptedAtMs : ℤ) (r : QuotaReading) : List (Text × Value) :=
  [(("actor" : Text), .str "quota-updater"), ("source", .str "codex-cli"),
    ("attempted_at_ms", .int attemptedAtMs), ("outcome", .str "ok"), ("error", .null),
    ("observed_at_ms", .int r.observedAtMs), ("remaining_percent", .int r.remainingPercent),
    ("reset_at_ms", .int r.resetAtMs)]

lemma validateAttempt_succeededItems {attemptedAtMs : ℤ} {r : QuotaReading}
    (hrange : 1 ≤ attemptedAtMs ∧ attemptedAtMs ≤ 253402300799999)
    (hsound : r.Sound attemptedAtMs) :
    (validateAttempt (succeededItems attemptedAtMs r)).isSome = true := by
  have h : Succeeded (succeededItems attemptedAtMs r) ⟨attemptedAtMs, none, some r⟩ r :=
    ⟨rfl, hrange, rfl, ⟨rfl, rfl⟩, rfl, rfl, rfl, rfl, hsound⟩
  exact validateAttempt_of_succeeded rfl rfl rfl h

lemma attemptItems_of_ok {r : QuotaReading} (herror : row.error = none)
    (hreading : row.reading = some r) :
    attemptItems row.columns = succeededItems row.attemptedAtMs r := by
  simp [attemptItems, QuotaObservation.columns, herror, hreading, successItems, columnValue,
    dictUpdate, succeededItems]
  rfl

lemma checkItems_of_reading {r : QuotaReading} (hreading : row.reading = some r) :
    checkItems row.columns = succeededItems row.attemptedAtMs r := by
  cases herror : row.error with
  | none =>
      rw [checkItems, attemptItems_of_ok herror hreading]
      simp [QuotaObservation.columns, hreading, successItems, columnValue, dictUpdate]
      rfl
  | some e =>
      have hne : ("failed" : Text) ≠ ("ok" : Text) := by decide
      simp [checkItems, attemptItems, QuotaObservation.columns, herror, hreading, hne, successItems,
        columnValue, dictUpdate]
      rfl

/-- The status of a sound row passes the validation of the reader. -/
lemma attemptItems_valid (hsound : row.Sound) :
    (validateAttempt (attemptItems row.columns)).isSome = true := by
  cases herror : row.error with
  | some e =>
      rw [attemptItems_of_error herror]
      exact validateAttempt_failedItems hsound.attempted (hsound.error e herror)
  | none =>
      obtain ⟨r, hreading⟩ := Option.isSome_iff_exists.mp (hsound.succeeded herror)
      rw [attemptItems_of_ok herror hreading]
      exact validateAttempt_succeededItems hsound.attempted (hsound.reading r hreading)

/-- Both validations of the reader pass, and it shows the row. -/
lemma readProjection_of_sound (hsound : row.Sound) :
    readProjection (some row.columns) =
      ⟨true, row.reading.map fun r =>
          ⟨.int r.observedAtMs, .int r.remainingPercent, 10080, .int r.resetAtMs⟩,
        some ⟨1, row.attemptedAtMs, row.columns.outcome, row.error⟩⟩ := by
  have hattempt : (validateAttempt (attemptItems row.columns)).isNone = false := by
    rw [← Option.not_isSome, attemptItems_valid hsound]
    rfl
  cases hreading : row.reading with
  | none =>
      have hobserved : row.columns.observedAtMs = none := by
        rw [QuotaObservation.columns, hreading]
        rfl
      simp only [readProjection, hattempt, hobserved, Option.isNone_none, Bool.false_eq_true,
        ↓reduceIte, Option.map_none]
      rfl
  | some r =>
      have hcheck : (validateAttempt (checkItems row.columns)).isNone = false := by
        rw [checkItems_of_reading hreading, ← Option.not_isSome,
          validateAttempt_succeededItems hsound.attempted (hsound.reading r hreading)]
        rfl
      have hcolumns : row.columns.observedAtMs = some r.observedAtMs ∧
          row.columns.remainingPercent = some r.remainingPercent ∧
          row.columns.resetAtMs = some r.resetAtMs := by
        simp [QuotaObservation.columns, hreading]
      simp only [readProjection, hattempt, hcheck, hcolumns, Option.isNone_some, Bool.false_eq_true,
        ↓reduceIte, Option.map_some]
      rfl

/-! ## The constraints of the table -/

lemma satisfiesChecks_of_sound (hsound : row.Sound) : row.satisfiesChecks = true := by
  have hpresent : (row.error.isSome || row.reading.isSome) = true := by
    cases herror : row.error with
    | some e => rfl
    | none => rw [hsound.succeeded herror, Bool.or_true]
  have hreading : (row.reading.all fun r =>
      decide (0 ≤ r.remainingPercent ∧ r.remainingPercent ≤ 100) &&
        decide (0 < r.observedAtMs ∧ r.observedAtMs ≤ row.attemptedAtMs) &&
        decide (r.observedAtMs < r.resetAtMs ∧ r.resetAtMs ≤ r.observedAtMs + weekMs)) = true := by
    cases hr : row.reading with
    | none => rfl
    | some r =>
        obtain ⟨hpositive, hle, hwindow, -, hremaining⟩ := hsound.reading r hr
        simp only [Option.all_some, Bool.and_eq_true, decide_eq_true_eq]
        exact ⟨⟨hremaining, hpositive, hle⟩, hwindow⟩
  have hattempted := hsound.attempted
  simp only [QuotaObservation.satisfiesChecks, hpresent, hreading, Bool.and_true, decide_eq_true_eq]
  omega

/-- A reading passes the constraint on its window. -/
lemma windowCheck_of_sound (hsound : row.Sound) : row.columns.windowCheck = some true := by
  cases hr : row.reading with
  | none => simp [ObservationRow.windowCheck, QuotaObservation.columns, hr, sqlOr]
  | some r =>
      obtain ⟨hpositive, hle, hwindow, -, -⟩ := hsound.reading r hr
      have hweek : r.resetAtMs ≤ r.observedAtMs + 604800000 := hwindow.2
      have hlt : (0 : ℤ) < r.observedAtMs := hpositive
      simp [ObservationRow.windowCheck, QuotaObservation.columns, hr, sqlOr, sqlAnd, sqlLt, sqlLe,
        hlt, hle, hwindow.1, hweek]

/-- A reading passes the constraint on its percentage. -/
lemma remainingCheck_of_sound (hsound : row.Sound) :
    sqlAnd (sqlLe (some 0) row.columns.remainingPercent)
      (sqlLe row.columns.remainingPercent (some 100)) ≠ some false := by
  cases hr : row.reading with
  | none => simp [QuotaObservation.columns, hr, sqlLe, sqlAnd]
  | some r =>
      have hremaining := (hsound.reading r hr).remaining
      simp [QuotaObservation.columns, hr, sqlLe, sqlAnd, hremaining]

/-- The columns of a sound row satisfy every constraint. -/
lemma passesChecks_of_sound (hsound : row.Sound) : row.columns.passesChecks = true := by
  have hattempted := hsound.attempted
  have hpositive : 0 < row.attemptedAtMs := hattempted.1
  have hwindow := windowCheck_of_sound hsound
  have hremaining := remainingCheck_of_sound hsound
  have hne : ("failed" : Text) ≠ ("ok" : Text) := by decide
  simp only [ObservationRow.passesChecks, ObservationRow.checks, List.all_cons, List.all_nil,
    hwindow, ne_eq, hremaining]
  cases herror : row.error with
  | some e =>
      have hmem := hsound.error e herror
      simp [QuotaObservation.columns, herror, sqlOr, hmem, hattempted, hpositive, hne]
  | none =>
      obtain ⟨r, hr⟩ := Option.isSome_iff_exists.mp (hsound.succeeded herror)
      simp [QuotaObservation.columns, herror, hr, sqlOr, hattempted, hpositive]

/-! ## The upsert -/

/-- The row an attempt leaves. -/
def QuotaObservation.after (attempt : QuotaObservation) (row : Option QuotaObservation) :
    QuotaObservation :=
  { attempt with
    reading := attempt.reading.or (row.bind QuotaObservation.reading) }

/-- Column by column, the upsert of a row is the row with the reading of the one or the other. -/
lemma columns_after (attempt : QuotaObservation) (row : Option QuotaObservation) :
    (attempt.after row).columns = upsert (row.map QuotaObservation.columns) attempt.columns := by
  cases row with
  | none => simp [QuotaObservation.after, upsert]
  | some row =>
      cases hreading : attempt.reading with
      | none => simp [QuotaObservation.after, QuotaObservation.columns, upsert, hreading]
      | some r => simp [QuotaObservation.after, QuotaObservation.columns, upsert, hreading]

/-- The comparison of the two rows is the comparison of their columns. -/
lemma isStale_eq (row : QuotaObservation) (h : attempt.IsAttempt) :
    isStale row attempt = staleColumns row.columns attempt.columns := by
  have hne : ("failed" : Text) ≠ ("ok" : Text) := by decide
  cases herror : attempt.error with
  | some e =>
      have hreading := h.alone (by rw [herror]; rfl)
      simp [isStale, staleColumns, QuotaObservation.columns, herror, hreading, hne]
  | none =>
      obtain ⟨r, hreading⟩ := Option.isSome_iff_exists.mp (h.sound.succeeded herror)
      cases hrow : row.reading with
      | none => simp [isStale, staleColumns, QuotaObservation.columns, herror, hreading, hrow]
      | some r' =>
          simp [isStale, staleColumns, QuotaObservation.columns, herror, hreading, hrow, sqlLe]

/-- What is not stale comes later, and reads later. -/
lemma later_of_not_stale (h : isStale row attempt = false) :
    row.attemptedAtMs < attempt.attemptedAtMs ∧
      ∀ old new, row.reading = some old → attempt.reading = some new →
        old.observedAtMs < new.observedAtMs := by
  simp only [isStale, Bool.or_eq_false_iff, decide_eq_false_iff_not, not_le] at h
  refine ⟨h.1, ?_⟩
  intro old new hold hnew
  have hlater := h.2
  rw [hold, hnew] at hlater
  simpa using hlater

/-- An attempt that is not stale leaves a sound row. -/
lemma Sound.after {row : Option QuotaObservation} (h : attempt.IsAttempt)
    (hrow : ∀ r, row = some r → r.Sound) (hlater : ∀ r, row = some r → isStale r attempt = false) :
    (attempt.after row).Sound := by
  refine ⟨h.sound.attempted, h.sound.error, ?_, ?_⟩
  · intro herror
    have hsome := h.sound.succeeded herror
    simp [QuotaObservation.after, hsome]
  · intro r hr
    cases hnew : attempt.reading with
    | some r' =>
        obtain rfl : r' = r := by simpa [QuotaObservation.after, hnew] using hr
        exact h.sound.reading r' hnew
    | none =>
        obtain ⟨old, hold, hreading⟩ : ∃ old, row = some old ∧ old.reading = some r := by
          simpa [QuotaObservation.after, hnew, Option.bind_eq_some_iff] using hr
        obtain ⟨hpositive, hle, hwindow, hmaximum, hremaining⟩ :=
          (hrow old hold).reading r hreading
        have hlt := (later_of_not_stale (hlater old hold)).1
        exact ⟨hpositive, hle.trans hlt.le, hwindow, hmaximum, hremaining⟩

end

/-! ## What a call does to the row -/

section
variable {pf : Platform} {env : Environment} {db db' : Db} {cmd : Command} {out : Outcome}
  {call : Call} {attempt : QuotaObservation}

lemma quotaEvent_answer {rt : Runtime} {clock : Clock} {before : Db}
    {result : Except Text (List (Text × Value))}
    (h : quotaEvent rt clock before cmd result = .ok (out, db')) :
    db'.observation = before.observation ∧ out.replayed = false ∧
      out.result = if result.isOk then .accepted else .rejected := by
  rcases result with reason | _ | ⟨first, rest⟩
  all_goals
    simp only [quotaEvent, bind_eq_ok] at h
    obtain ⟨recorded, -, delta, -, h⟩ := h
    simp only [pure, Except.pure, Except.ok.injEq, Prod.mk.injEq] at h
    obtain ⟨rfl, rfl⟩ := h
    exact ⟨rfl, rfl, rfl⟩

/-- An attempt is refused, or it is later than the row and replaces its status. -/
lemma attemptCommand_cases
    (h : attemptCommand pf.toRuntime env.clock db cmd attempt = .ok (out, db')) :
    out.result = .rejected ∧ db'.observation = db.observation ∨
      out.result = .accepted ∧ out.replayed = false ∧
        (∀ row, db.observation = some row → isStale row attempt = false) ∧
        db'.observation = some (attempt.after db.observation) := by
  unfold attemptCommand at h
  split at h
  · exact absurd h (by simp)
  · split at h
    · obtain ⟨hsame, -, hresult⟩ := quotaEvent_answer h
      exact .inl ⟨hresult, hsame⟩
    · rename_i hfresh
      dsimp only at h
      split at h
      · exact absurd h (by simp)
      · obtain ⟨hset, hreplayed, hresult⟩ := quotaEvent_answer h
        refine .inr ⟨hresult, hreplayed, ?_, hset⟩
        intro row hrow
        simpa [hrow] using hfresh

lemma snapshot_observation
    (h : snapshotCommand pf.toRuntime env.clock db cmd = .ok (out, db')) :
    db'.observation = db.observation := by
  unfold snapshotCommand at h
  split at h
  · exact absurd h (by simp)
  · exact (quotaEvent_answer h).1
  · dsimp only at h
    split at h
    · exact absurd h (by simp)
    · split at h
      · exact (quotaEvent_answer h).1
      · exact (quotaEvent_answer h).1

lemma invalidate_observation
    (h : invalidateCommand pf.toRuntime env.clock db cmd = .ok (out, db')) :
    db'.observation = db.observation := by
  unfold invalidateCommand at h
  dsimp only at h
  split at h
  · exact (quotaEvent_answer h).1
  · split at h
    · exact (quotaEvent_answer h).1
    · exact (quotaEvent_answer h).1

/-- Only an attempt touches the row. -/
lemma dispatch_observation (h : dispatch pf env db cmd = .ok (out, db'))
    (hverb : cmd.verb ≠ .quotaCliAttempt) : db'.observation = db.observation := by
  obtain ⟨event, heffect, -⟩ := dispatch_effect h
  cases heffect with
  | rejected => rfl
  | created => rfl
  | moved => rfl
  | quota hquota =>
      rcases hquota with hquota | hquota | hquota
      · exact absurd hquota hverb
      · simp only [dispatch, hquota] at h
        exact snapshot_observation h
      · simp only [dispatch, hquota] at h
        exact invalidate_observation h

/-- How the row may change in one call: not at all, or by an attempt that is accepted. -/
inductive ObservationStep (pf : Platform) (db : Db) (call : Call) (after : Db) : Prop
  | same (hnone : acceptedRow pf db call = none) (h : after.observation = db.observation)
  | accepted {attempt : QuotaObservation} (hattempt : attempt.IsAttempt)
      (hrow : acceptedRow pf db call = some attempt.columns)
      (hlater : ∀ row, db.observation = some row → isStale row attempt = false)
      (h : after.observation = some (attempt.after db.observation))

/-- What an answered call has accepted, read off its answer. -/
lemma acceptedRow_of_ok (hread : readRequest pf call.request = .ok cmd)
    (h : handleRequest pf call.env db call.request = .ok (out, db')) :
    acceptedRow pf db call =
      if cmd.verb = .quotaCliAttempt then
        if out.result = .accepted ∧ out.replayed = false then excludedRow cmd.payload else none
      else none := by
  have hfrom := readFrom_of_readRequest hread
  simp only [acceptedRow, hfrom.verb, hfrom.payload, h]
  cases cmd.verb <;> rfl

/-- An answer from the journal is no new acceptance. -/
lemma replay_not_new (event : Event) (digest : Text) :
    ¬((replay event digest).result = .accepted ∧ (replay event digest).replayed = false) := by
  rintro ⟨hresult, hreplayed⟩
  have hrecorded : decide (event.payloadHash = .text digest) = false := hreplayed
  simp [replay, hrecorded] at hresult

lemma serve_observation (pf : Platform) (db : Db) (call : Call) :
    ObservationStep pf db call (serve pf db call) := by
  cases hcall : handleRequest pf call.env db call.request with
  | error e =>
      refine .same ?_ ?_
      · rw [acceptedRow, hcall]
        split
        · rename_i h
          cases h
        · rfl
      · rw [serve, hcall]
  | ok answer =>
      obtain ⟨out, after⟩ := answer
      have hserve : serve pf db call = after := by rw [serve, hcall]
      obtain ⟨cmd, hread, hexecute⟩ := bind_eq_ok.mp hcall
      have haccepted := acceptedRow_of_ok hread hcall
      unfold execute at hexecute
      split at hexecute
      · rename_i event _
        obtain ⟨rfl, rfl⟩ := Prod.mk.inj (Except.ok.inj hexecute)
        refine .same ?_ (by rw [hserve])
        rw [haccepted]
        split_ifs with hverb hresult
        · exact absurd hresult (replay_not_new event cmd.digest)
        · rfl
        · rfl
      · by_cases hverb : cmd.verb = .quotaCliAttempt
        · rw [if_pos hverb] at haccepted
          simp only [dispatch, hverb] at hexecute
          split at hexecute
          · rename_i attempt hvalid
            rcases attemptCommand_cases hexecute with ⟨hresult, hsame⟩ |
              ⟨hresult, hreplayed, hlater, hset⟩
            · rw [hresult, if_neg (by simp)] at haccepted
              exact .same haccepted (hserve ▸ hsame)
            · rw [if_pos ⟨hresult, hreplayed⟩, excludedRow_of_validate hvalid] at haccepted
              exact .accepted (isAttempt_of_validate hvalid) haccepted hlater (hserve ▸ hset)
          · exact absurd hexecute (by simp)
        · rw [if_neg hverb] at haccepted
          exact .same haccepted (hserve ▸ dispatch_observation hexecute hverb)

/-! ## Runs -/

/-- The row after these attempts: the status of the last, and the last reading there is. -/
def merged (attempts : List QuotaObservation) : Option QuotaObservation :=
  attempts.getLast?.map fun last =>
    { last with reading := (attempts.filterMap QuotaObservation.reading).getLast? }

lemma merged_reading (attempts : List QuotaObservation) :
    (merged attempts).bind QuotaObservation.reading =
      (attempts.filterMap QuotaObservation.reading).getLast? := by
  cases hlast : attempts.getLast? with
  | none =>
      rw [List.getLast?_eq_none_iff.mp hlast]
      rfl
  | some last => simp [merged, hlast]

/-- An attempt more. -/
lemma merged_concat (attempts : List QuotaObservation) (attempt : QuotaObservation) :
    merged (attempts ++ [attempt]) = some (attempt.after (merged attempts)) := by
  rw [QuotaObservation.after, merged_reading]
  cases hreading : attempt.reading with
  | none => simp [merged, List.filterMap_append, hreading]
  | some r => simp [merged, List.filterMap_append, hreading]

/-- The attempts accepted in a run, and the row they leave. -/
structure AttemptLedger (db : Db) (attempts : List QuotaObservation) : Prop where
  valid : ∀ attempt ∈ attempts, attempt.IsAttempt
  attempted : Rising.IsRising QuotaObservation.attemptedAtMs attempts
  observed : Rising.IsRising QuotaReading.observedAtMs
    (attempts.filterMap QuotaObservation.reading)
  row : db.observation = merged attempts
  sound : ∀ row, db.observation = some row → row.Sound

lemma AttemptLedger.fresh (tasks : List TaskRow) : AttemptLedger (Db.fresh tasks) [] where
  valid := by simp
  attempted := List.Pairwise.nil
  observed := List.Pairwise.nil
  row := rfl
  sound := by simp [Db.fresh]

/-- An attempt that is not stale is entered. -/
lemma AttemptLedger.concat {after : Db} {attempts : List QuotaObservation}
    (h : AttemptLedger db attempts)
    (hattempt : attempt.IsAttempt)
    (hlater : ∀ row, db.observation = some row → isStale row attempt = false)
    (hafter : after.observation = some (attempt.after db.observation)) :
    AttemptLedger after (attempts ++ [attempt]) := by
  refine ⟨?_, ?_, ?_, ?_, ?_⟩
  · intro a ha
    rcases List.mem_append.mp ha with ha | ha
    · exact h.valid a ha
    · rw [List.mem_singleton.mp ha]
      exact hattempt
  · apply h.attempted.concat
    intro last hlast
    have hrow : db.observation = some
        { last with reading := (attempts.filterMap QuotaObservation.reading).getLast? } := by
      rw [h.row, merged, hlast]
      rfl
    exact (later_of_not_stale (hlater _ hrow)).1
  · rw [List.filterMap_append]
    cases hnew : attempt.reading with
    | none =>
        simp only [List.filterMap_cons, hnew, List.filterMap_nil, List.append_nil]
        exact h.observed
    | some new =>
        simp only [List.filterMap_cons, hnew, List.filterMap_nil]
        apply h.observed.concat
        intro old hold
        have hreading : db.observation.bind QuotaObservation.reading = some old := by
          rw [h.row, merged_reading, hold]
        obtain ⟨row, hrow, hold⟩ := Option.bind_eq_some_iff.mp hreading
        exact (later_of_not_stale (hlater row hrow)).2 old new hold hnew
  · rw [hafter, h.row, merged_concat]
  · intro row hrow
    rw [hafter] at hrow
    obtain rfl := Option.some.inj hrow
    exact Sound.after hattempt h.sound hlater

lemma acceptedRows_append (db : Db) (calls calls' : List Call) :
    acceptedRows pf db (calls ++ calls') =
      acceptedRows pf db calls ++ acceptedRows pf (run pf db calls) calls' := by
  induction calls generalizing db with
  | nil => rfl
  | cons call rest ih =>
      rw [List.cons_append, acceptedRows, acceptedRows, ih, List.append_assoc]
      rfl

/-- After any calls the rows accepted are those of a ledger. -/
lemma run_ledger (pf : Platform) (tasks : List TaskRow) (calls : List Call) :
    ∃ attempts, acceptedRows pf (Db.fresh tasks) calls = attempts.map QuotaObservation.columns ∧
      AttemptLedger (run pf (Db.fresh tasks) calls) attempts := by
  induction calls using List.reverseRecOn with
  | nil => exact ⟨[], rfl, .fresh tasks⟩
  | append_singleton calls call ih =>
      obtain ⟨attempts, hrows, hledger⟩ := ih
      rw [run_concat, acceptedRows_append]
      simp only [acceptedRows, List.append_nil]
      cases serve_observation pf (run pf (Db.fresh tasks) calls) call with
      | same hnone hsame =>
          refine ⟨attempts, by simp [hrows, hnone], hledger.valid, hledger.attempted,
            hledger.observed, ?_, ?_⟩
          · rw [hsame, hledger.row]
          · rw [hsame]
            exact hledger.sound
      | accepted hattempt hrow hlater hset =>
          refine ⟨attempts ++ [_], ?_, hledger.concat hattempt hlater hset⟩
          simp [hrows, hrow]

/-! ## What a ledger shows -/

/-- The columns of the observation. -/
def ObservationRow.window (r : ObservationRow) : Option ℤ × Option ℤ × Option ℤ :=
  (r.observedAtMs, r.remainingPercent, r.resetAtMs)

def QuotaReading.window (r : QuotaReading) : Option ℤ × Option ℤ × Option ℤ :=
  (some r.observedAtMs, some r.remainingPercent, some r.resetAtMs)

lemma lastGood_concat (rows : List ObservationRow) (row : ObservationRow) :
    lastGood (rows ++ [row]) = if row.outcome = ("ok" : Text) then some row else lastGood rows := by
  by_cases hok : row.outcome = ("ok" : Text)
  · simp [lastGood, List.filter_append, hok]
  · simp [lastGood, List.filter_append, hok]

/-- The last good row has the columns of the last reading. -/
lemma lastGood_columns {attempts : List QuotaObservation}
    (h : ∀ attempt ∈ attempts, attempt.IsAttempt) :
    (lastGood (attempts.map QuotaObservation.columns)).map ObservationRow.window =
      (attempts.filterMap QuotaObservation.reading).getLast?.map QuotaReading.window := by
  induction attempts using List.reverseRecOn with
  | nil => rfl
  | append_singleton attempts attempt ih =>
      have hattempt := h attempt (by simp)
      have hrest := ih fun a ha => h a (List.mem_append_left _ ha)
      rw [List.map_append, List.map_singleton, lastGood_concat, List.filterMap_append]
      cases herror : attempt.error with
      | some e =>
          have hne : ("failed" : Text) ≠ ("ok" : Text) := by decide
          have hreading := hattempt.alone (by rw [herror]; rfl)
          have houtcome : attempt.columns.outcome = ("failed" : Text) := by
            simp [QuotaObservation.columns, herror]
          rw [houtcome, if_neg hne, hrest]
          simp [hreading]
      | none =>
          obtain ⟨r, hreading⟩ :=
            Option.isSome_iff_exists.mp (hattempt.sound.succeeded herror)
          have houtcome : attempt.columns.outcome = ("ok" : Text) := by
            simp [QuotaObservation.columns, herror]
          rw [if_pos houtcome]
          simp [hreading, ObservationRow.window, QuotaReading.window, QuotaObservation.columns]

lemma latest_columns {attempts : List QuotaObservation}
    (h : ∀ attempt ∈ attempts, attempt.IsAttempt) :
    latest (attempts.map QuotaObservation.columns) =
      (merged attempts).map QuotaObservation.columns := by
  have hgood := lastGood_columns h
  cases hlast : attempts.getLast? with
  | none => simp [latest, merged, hlast]
  | some last =>
      simp only [latest, merged, List.getLast?_map, hlast, Option.map_some, Option.some.injEq]
      cases hreading : (attempts.filterMap QuotaObservation.reading).getLast? with
      | none =>
          have hnone : lastGood (attempts.map QuotaObservation.columns) = none := by
            simpa [hreading] using hgood
          simp [hnone, QuotaObservation.columns]
      | some r =>
          obtain ⟨good, hsome, hwindow⟩ : ∃ good,
              lastGood (attempts.map QuotaObservation.columns) = some good ∧
                good.window = r.window := by
            simpa [hreading] using hgood
          simp only [ObservationRow.window, QuotaReading.window, Prod.mk.injEq] at hwindow
          simp [hsome, hwindow, QuotaObservation.columns]

/-- The reader shows what the ledger says. -/
lemma AttemptLedger.readProjection {attempts : List QuotaObservation}
    (h : AttemptLedger db attempts) :
    readProjection db.observationRow = projected (attempts.map QuotaObservation.columns) := by
  have hgood := lastGood_columns h.valid
  cases hlast : attempts.getLast? with
  | none =>
      have hnil := List.getLast?_eq_none_iff.mp hlast
      rw [Db.observationRow, h.row, hnil]
      rfl
  | some last =>
      have hrow : db.observation = some
          { last with reading := (attempts.filterMap QuotaObservation.reading).getLast? } := by
        rw [h.row, merged, hlast]
        rfl
      rw [Db.observationRow, hrow, Option.map_some, readProjection_of_sound (h.sound _ hrow)]
      have hobservation : (attempts.filterMap QuotaObservation.reading).getLast?.map (fun r =>
          (⟨.int r.observedAtMs, .int r.remainingPercent, 10080, .int r.resetAtMs⟩ :
            ProjectedObservation)) =
          (lastGood (attempts.map QuotaObservation.columns)).map fun r =>
            ⟨columnValue r.observedAtMs, columnValue r.remainingPercent, 10080,
              columnValue r.resetAtMs⟩ := by
        have hmap := congrArg (Option.map fun w : Option ℤ × Option ℤ × Option ℤ =>
          (⟨columnValue w.1, columnValue w.2.1, 10080, columnValue w.2.2⟩ :
            ProjectedObservation)) hgood
        rw [Option.map_map, Option.map_map] at hmap
        exact hmap.symm
      rw [hobservation, projected, List.getLast?_map, hlast]
      rfl

/-- An attempt that is neither late nor early is not stopped by a constraint. -/
lemma attemptCommand_ne_integrityError (hattempt : attempt.IsAttempt)
    (hsound : ∀ row, db.observation = some row → row.Sound) :
    attemptCommand pf.toRuntime env.clock db cmd attempt ≠ .error .integrityError := by
  have hquota : ∀ (before : Db) (result : Except Text (List (Text × Value))),
      (result = .ok [] ∨ ∃ reason, result = .error reason) →
        quotaEvent pf.toRuntime env.clock before cmd result ≠ .error .integrityError := by
    intro before result hresult
    rcases hresult with rfl | ⟨reason, rfl⟩
    all_goals
      simp only [quotaEvent, jsonText]
      cases dumpsPadded " " pf.dumpsDepth pf.floatRepr (.obj cmd.payload) with
      | ok text => simp [Except.mapError, bind, Except.bind, pure, Except.pure]
      | error e => cases e <;> simp [Except.mapError, bind, Except.bind, refused]
  unfold attemptCommand
  split
  · simp
  · split
    · exact hquota _ _ (.inr ⟨_, rfl⟩)
    · rename_i hfresh
      have hlater : ∀ row, db.observation = some row → isStale row attempt = false := by
        intro row hrow
        simpa [hrow] using hfresh
      have hchecks := satisfiesChecks_of_sound (Sound.after hattempt hsound hlater)
      rw [QuotaObservation.after] at hchecks
      dsimp only
      rw [hchecks]
      exact hquota _ _ (.inl rfl)

/-! ## Forward only -/

/-- What holds of the projection after any sequence of calls. -/
structure MovesForward (pf : Platform) (tasks : List TaskRow) (calls : List Call) : Prop where
  /-- Each accepted attempt is later than those before it. -/
  attempted : (acceptedRows pf (Db.fresh tasks) calls).Pairwise fun a b =>
    a.attemptedAtMs < b.attemptedAtMs
  /-- Each accepted observation is later than those before it. -/
  observed : ((acceptedRows pf (Db.fresh tasks) calls).filterMap
    ObservationRow.observedAtMs).Pairwise (· < ·)
  /-- What is accepted has all columns of an observation if it succeeded, and none otherwise. -/
  complete : ∀ r ∈ acceptedRows pf (Db.fresh tasks) calls, r.passesChecks = true ∧
    (r.outcome = ("ok" : Text) ↔ r.observedAtMs.isSome = true)
  /-- The row is the status of the last attempt, with the observation of the last good one. -/
  row : (run pf (Db.fresh tasks) calls).observationRow =
    latest (acceptedRows pf (Db.fresh tasks) calls)
  /-- The row satisfies the constraints of the table. -/
  constrained : ∀ row, (run pf (Db.fresh tasks) calls).observationRow = some row →
    row.passesChecks = true
  /-- A call either leaves the row alone or upserts the attempt it accepts. -/
  upserted : ∀ call, (serve pf (run pf (Db.fresh tasks) calls) call).observationRow =
    match acceptedRow pf (run pf (Db.fresh tasks) calls) call with
    | none => (run pf (Db.fresh tasks) calls).observationRow
    | some excluded => some (upsert (run pf (Db.fresh tasks) calls).observationRow excluded)
  /-- No attempt is stopped by a constraint: what is not stale can be written. -/
  writes : ∀ (env : Environment) (cmd : Command) (attempt : QuotaObservation),
    validateAttempt cmd.payload = some attempt →
    attemptCommand pf.toRuntime env.clock (run pf (Db.fresh tasks) calls) cmd attempt ≠
        .error .integrityError ∧
      ((∀ row, (run pf (Db.fresh tasks) calls).observationRow = some row →
          staleColumns row attempt.columns = false) →
        (upsert (run pf (Db.fresh tasks) calls).observationRow attempt.columns).passesChecks = true)
  /-- The reader shows the last attempt and the last good observation. -/
  shown : readProjection (run pf (Db.fresh tasks) calls).observationRow =
    projected (acceptedRows pf (Db.fresh tasks) calls)
  /-- Neither time is ever set back. -/
  since : ∀ earlier, earlier <+: calls → ∀ old,
    (run pf (Db.fresh tasks) earlier).observationRow = some old →
    ∃ new, (run pf (Db.fresh tasks) calls).observationRow = some new ∧
      old.attemptedAtMs ≤ new.attemptedAtMs ∧
      ∀ t, old.observedAtMs = some t → ∃ t', new.observedAtMs = some t' ∧ t ≤ t'

/-- One call sets neither time back. -/
lemma serve_since (call : Call) {old : ObservationRow} (hold : db.observationRow = some old) :
    ∃ new, (serve pf db call).observationRow = some new ∧
      old.attemptedAtMs ≤ new.attemptedAtMs ∧
      ∀ t, old.observedAtMs = some t → ∃ t', new.observedAtMs = some t' ∧ t ≤ t' := by
  cases serve_observation pf db call with
  | same _ hsame =>
      refine ⟨old, ?_, le_refl _, fun t ht => ⟨t, ht, le_refl t⟩⟩
      rw [Db.observationRow, hsame]
      exact hold
  | accepted hattempt hrow hlater hset =>
      rename_i attempt
      obtain ⟨row, hobservation, rfl⟩ := Option.map_eq_some_iff.mp hold
      obtain ⟨hlt, hobserved⟩ := later_of_not_stale (hlater row hobservation)
      refine ⟨(attempt.after db.observation).columns, by rw [Db.observationRow, hset]; rfl,
        hlt.le, ?_⟩
      intro t ht
      obtain ⟨r, hreading, rfl⟩ := Option.map_eq_some_iff.mp ht
      cases hnew : attempt.reading with
      | none =>
          refine ⟨r.observedAtMs, ?_, le_refl _⟩
          simp [QuotaObservation.after, QuotaObservation.columns, hobservation, hreading, hnew]
      | some new =>
          refine ⟨new.observedAtMs, ?_, (hobserved r new hreading hnew).le⟩
          simp [QuotaObservation.after, QuotaObservation.columns, hnew]

lemma run_since (pf : Platform) (tasks : List TaskRow) (earlier calls : List Call)
    {old : ObservationRow} (hold : (run pf (Db.fresh tasks) earlier).observationRow = some old) :
    ∃ new, (run pf (Db.fresh tasks) (earlier ++ calls)).observationRow = some new ∧
      old.attemptedAtMs ≤ new.attemptedAtMs ∧
      ∀ t, old.observedAtMs = some t → ∃ t', new.observedAtMs = some t' ∧ t ≤ t' := by
  induction calls using List.reverseRecOn with
  | nil =>
      rw [List.append_nil]
      exact ⟨old, hold, le_refl _, fun t ht => ⟨t, ht, le_refl t⟩⟩
  | append_singleton calls call ih =>
      obtain ⟨middle, hmiddle, hattempted, hobserved⟩ := ih
      obtain ⟨new, hnew, hattempted', hobserved'⟩ := serve_since call hmiddle
      rw [← List.append_assoc, run_concat]
      refine ⟨new, hnew, hattempted.trans hattempted', ?_⟩
      intro t ht
      obtain ⟨t', ht', hle⟩ := hobserved t ht
      obtain ⟨t'', ht'', hle'⟩ := hobserved' t' ht'
      exact ⟨t'', ht'', hle.trans hle'⟩

lemma IsAttempt.ok_iff (h : attempt.IsAttempt) :
    attempt.columns.outcome = ("ok" : Text) ↔ attempt.columns.observedAtMs.isSome = true := by
  have hne : ("failed" : Text) ≠ ("ok" : Text) := by decide
  cases herror : attempt.error with
  | some e =>
      have hreading := h.alone (by rw [herror]; rfl)
      simp [QuotaObservation.columns, herror, hreading, hne]
  | none =>
      have hreading := h.sound.succeeded herror
      simp [QuotaObservation.columns, herror, hreading]

/-- Whatever is sent in whatever order, the projection only moves forward, and shows the last
attempt beside the last good observation. -/
theorem projection_forward (pf : Platform) (tasks : List TaskRow) (calls : List Call) :
    MovesForward pf tasks calls := by
  obtain ⟨attempts, hrows, hledger⟩ := run_ledger pf tasks calls
  constructor
  · rw [hrows, List.pairwise_map]
    exact hledger.attempted
  · have hfilter : (attempts.map QuotaObservation.columns).filterMap ObservationRow.observedAtMs =
        (attempts.filterMap QuotaObservation.reading).map QuotaReading.observedAtMs := by
      rw [List.filterMap_map, List.map_filterMap]
      rfl
    rw [hrows, hfilter, List.pairwise_map]
    exact hledger.observed
  · intro r hr
    rw [hrows] at hr
    obtain ⟨attempt, hmem, rfl⟩ := List.mem_map.mp hr
    have hattempt := hledger.valid attempt hmem
    exact ⟨passesChecks_of_sound hattempt.sound, IsAttempt.ok_iff hattempt⟩
  · rw [hrows, latest_columns hledger.valid, Db.observationRow, hledger.row]
  · intro row hrow
    obtain ⟨stored, hstored, rfl⟩ := Option.map_eq_some_iff.mp hrow
    exact passesChecks_of_sound (hledger.sound stored hstored)
  · intro call
    cases serve_observation pf (run pf (Db.fresh tasks) calls) call with
    | same hnone hsame => rw [hnone, Db.observationRow, hsame, Db.observationRow]
    | accepted hattempt hrow hlater hset =>
        rw [hrow, Db.observationRow, hset, Option.map_some, columns_after, Db.observationRow]
  · intro env cmd attempt hvalid
    have hattempt := isAttempt_of_validate hvalid
    refine ⟨attemptCommand_ne_integrityError hattempt hledger.sound, ?_⟩
    intro hfresh
    rw [Db.observationRow, ← columns_after]
    apply passesChecks_of_sound
    apply Sound.after hattempt hledger.sound
    intro row hrow
    rw [isStale_eq row hattempt]
    apply hfresh
    rw [Db.observationRow, hrow]
    rfl
  · rw [hrows]
    exact hledger.readProjection
  · rintro earlier ⟨rest, rfl⟩ old hold
    exact run_since pf tasks earlier rest hold

end

end Kanban

end AgentOrch
