import AgentOrch.Construction.Kanban.Admission

/-!
# The reserve

An estimate is eligible only if it is at most a share of what lies above the reserve, so whoever
claims it leaves the reserve untouched, and so does everyone after him who is told of his claim.
The other way round, eligibility can only be lost by asking for more or having less.

Both hold of what passes the checks.  An estimate of nothing, a negative number of windows and an
empty list of pools are refused by themselves.
-/

namespace AgentOrch

open Py Json

namespace Kanban

variable {limits : Limits} {atMs : ℤ} {s : QuotaSnapshot} {estimateBp remainingWindows : Value}
  {claims claims' : List (ℤ × ℤ)} {estimate windows debit : ℤ}

/-! ## Debits -/

/-- What the claims above the watermark debit. -/
def debits (s : QuotaSnapshot) (claims : List (ℤ × ℤ)) : ℤ :=
  ((claims.filter fun claim => decide (s.coveredClaimSeq < claim.1)).map Prod.snd).sum

/-- A claim as it may be told: it has a number, and debits something or nothing. -/
def IsClaim (claim : ℤ × ℤ) : Prop := 0 < claim.1 ∧ 0 ≤ claim.2

lemma debits_cons (claim : ℤ × ℤ) :
    debits s (claim :: claims) =
      (if s.coveredClaimSeq < claim.1 then claim.2 else 0) + debits s claims := by
  simp only [debits, List.filter_cons, decide_eq_true_eq]
  split_ifs with habove
  · rw [List.map_cons, List.sum_cons]
  · rw [zero_add]

/-- Debits add up in any order. -/
lemma debits_perm (h : claims.Perm claims') : debits s claims = debits s claims' := by
  induction h with
  | nil => rfl
  | cons claim _ ih => rw [debits_cons, debits_cons, ih]
  | swap claim claim' claims => simp only [debits_cons, add_left_comm]
  | trans _ _ ih ih' => rw [ih, ih']

/-- Fewer claims, fewer debits. -/
lemma debits_sublist (h : claims.Sublist claims') (hvalid : ∀ claim ∈ claims', IsClaim claim) :
    debits s claims ≤ debits s claims' := by
  induction h with
  | slnil => exact le_rfl
  | @cons claims claims' claim _ ih =>
      obtain ⟨hclaim, hrest⟩ := List.forall_mem_cons.mp hvalid
      have hle := ih hrest
      have hnonneg := hclaim.2
      rw [debits_cons]
      split_ifs <;> omega
  | @cons_cons claims claims' claim _ ih =>
      have hle := ih (List.forall_mem_cons.mp hvalid).2
      rw [debits_cons, debits_cons]
      omega

/-! ## Eligibility -/

/-- The pool can afford the estimate. -/
def Eligible (limits : Limits) (atMs : ℤ) (s : QuotaSnapshot) (estimateBp remainingWindows : Value)
    (claims : List (ℤ × ℤ)) : Prop :=
  (evaluatePool (some s) estimateBp remainingWindows claims atMs limits).eligible = true

/-- The reading counts: it passes the checks, and is neither reset, nor marked, nor too old. -/
structure Counts (limits : Limits) (atMs : ℤ) (s : QuotaSnapshot) (windows estimate : ℤ) :
    Prop where
  evaluable : isEvaluable s windows estimate atMs limits = true
  reset : atMs < s.resetAt
  unmarked : s.stale = false
  recent : atMs - s.observedAt < limits.snapshotMaxAgeMs

/-- What an estimate may be: a share of what lies above the reserve, within the cap. -/
structure Affords (limits : Limits) (s : QuotaSnapshot) (windows estimate debit : ℤ) : Prop where
  above : limits.daytimeReserveBp < s.weeklyRemainingBp - debit
  capped : estimate ≤ limits.perNightCapBp
  shared : estimate ≤ (s.weeklyRemainingBp - debit - limits.daytimeReserveBp) / max 1 windows

lemma explain_eligible :
    (explain s windows estimate debit limits).eligible = true ↔
      Affords limits s windows estimate debit := by
  simp only [explain, decide_eq_true_eq, le_min_iff]
  constructor
  · rintro ⟨habove, hcapped, hshared⟩
    rw [max_eq_right (sub_nonneg.mpr habove.le)] at hshared
    exact ⟨habove, hcapped, hshared⟩
  · rintro ⟨habove, hcapped, hshared⟩
    rw [max_eq_right (sub_nonneg.mpr habove.le)]
    exact ⟨habove, hcapped, hshared⟩

lemma eligible_iff :
    Eligible limits atMs s estimateBp remainingWindows claims ↔
      ∃ windows estimate, integer? remainingWindows = some windows ∧
        integer? estimateBp = some estimate ∧ Counts limits atMs s windows estimate ∧
        (∀ claim ∈ claims, IsClaim claim) ∧
        Affords limits s windows estimate (debits s claims) := by
  unfold Eligible evaluatePool
  cases hwindows : integer? remainingWindows with
  | none => simp [Explanation.refusal]
  | some windows =>
      cases hestimate : integer? estimateBp with
      | none => simp [Explanation.refusal]
      | some estimate =>
          have hclaims : (claims.any fun claim => decide (claim.1 ≤ 0 ∨ claim.2 < 0)) = false ↔
              ∀ claim ∈ claims, IsClaim claim := by
            simp only [List.any_eq_false, decide_eq_true_eq, not_or, not_le, not_lt, IsClaim]
          simp only [Option.some.injEq]
          constructor
          · intro h
            split_ifs at h with hevaluable hreset hstale hinvalid
            · cases h
            · cases h
            · cases h
            · cases h
            · rw [Bool.or_eq_true, decide_eq_true_eq, not_or, not_le, Bool.not_eq_true] at hstale
              rw [Bool.not_eq_true', Bool.not_eq_false] at hevaluable
              exact ⟨windows, estimate, rfl, rfl,
                ⟨hevaluable, not_le.mp hreset, hstale.1, hstale.2⟩,
                hclaims.mp (Bool.eq_false_iff.mpr hinvalid), explain_eligible.mp h⟩
          · rintro ⟨_, _, rfl, rfl, hcounts, hvalid, hafford⟩
            rw [if_neg (by simp [hcounts.evaluable]), if_neg (not_le.mpr hcounts.reset),
              if_neg (by simp [hcounts.unmarked, hcounts.recent]),
              if_neg (Bool.eq_false_iff.mp (hclaims.mpr hvalid))]
            exact explain_eligible.mpr hafford

/-! ## Admissions -/

/-- The claims of a run of admissions: each was eligible when all claims before it were told, and
is itself told from then on, above the watermark and with the estimate for its debit. -/
inductive Admitted (limits : Limits) (s : QuotaSnapshot) (existing : List (ℤ × ℤ)) :
    List (ℤ × ℤ) → Prop
  | start : Admitted limits s existing []
  | granted {admitted told : List (ℤ × ℤ)} {atMs seq estimate : ℤ} {remainingWindows : Value}
      (before : Admitted limits s existing admitted) (htold : told.Perm (existing ++ admitted))
      (heligible : Eligible limits atMs s (.int estimate) remainingWindows told)
      (hseq : s.coveredClaimSeq < seq) : Admitted limits s existing (admitted ++ [(seq, estimate)])

/-- What the claims leave is the reserve at least. -/
def KeepsReserve (limits : Limits) (s : QuotaSnapshot) (claims : List (ℤ × ℤ)) : Prop :=
  limits.daytimeReserveBp ≤ s.weeklyRemainingBp - debits s claims

/-- A share is at most the whole. -/
lemma Affords.le (h : Affords limits s windows estimate debit) :
    estimate ≤ s.weeklyRemainingBp - debit - limits.daytimeReserveBp :=
  h.shared.trans (Int.ediv_le_self _ (sub_nonneg.mpr h.above.le))

/-- Every admission leaves the reserve. -/
theorem Admitted.keepsReserve {existing admitted : List (ℤ × ℤ)}
    (h : Admitted limits s existing admitted) (hne : admitted ≠ []) :
    KeepsReserve limits s (existing ++ admitted) := by
  cases h with
  | start => exact absurd rfl hne
  | @granted admitted told atMs seq estimate remainingWindows _ htold heligible hseq =>
      obtain ⟨windows, _, -, hestimate, -, -, hafford⟩ := eligible_iff.mp heligible
      obtain rfl := Option.some.inj hestimate
      have hle := hafford.le
      have hdebits : debits s (existing ++ (admitted ++ [(seq, estimate)])) =
          estimate + debits s told := by
        rw [← List.append_assoc, debits_perm (List.perm_append_singleton _ _), debits_cons,
          if_pos hseq, debits_perm htold]
      unfold KeepsReserve
      rw [hdebits]
      omega

/-! ## Asking for more, having less -/

/-- Fewer shares are larger. -/
lemma ediv_le_ediv_of_le {a c c' : ℤ} (ha : 0 ≤ a) (hc : 0 < c) (hle : c ≤ c') :
    a / c' ≤ a / c := by
  have hc' : 0 < c' := hc.trans_le hle
  have hnonneg : 0 ≤ a / c' := Int.ediv_nonneg ha hc'.le
  rw [Int.le_ediv_iff_mul_le hc]
  calc a / c' * c ≤ a / c' * c' := Int.mul_le_mul_of_nonneg_left hle hnonneg
    _ ≤ a := Int.ediv_mul_le a hc'.ne'

/-- What is affordable stays so for a smaller estimate, out of more, with fewer windows. -/
lemma Affords.mono {s' : QuotaSnapshot} {windows' estimate' debit' : ℤ}
    (h : Affords limits s' windows' estimate' debit')
    (hweekly : s'.weeklyRemainingBp ≤ s.weeklyRemainingBp) (hdebit : debit ≤ debit')
    (hestimate : estimate ≤ estimate') (hwindows : windows ≤ windows') :
    Affords limits s windows estimate debit := by
  have habove := h.above
  have hpos : 0 < max 1 windows := lt_of_lt_of_le one_pos (le_max_left _ _)
  refine ⟨by omega, hestimate.trans h.capped, hestimate.trans (h.shared.trans ?_)⟩
  calc (s'.weeklyRemainingBp - debit' - limits.daytimeReserveBp) / max 1 windows'
      ≤ (s'.weeklyRemainingBp - debit' - limits.daytimeReserveBp) / max 1 windows :=
        ediv_le_ediv_of_le (by omega) hpos (max_le_max le_rfl hwindows)
    _ ≤ (s.weeklyRemainingBp - debit - limits.daytimeReserveBp) / max 1 windows :=
        Int.ediv_le_ediv hpos (by omega)

/-- The checks do not set an upper bound for windows and estimates, nor a lower one for the
remainder but zero. -/
lemma Counts.mono {s' : QuotaSnapshot} {windows' estimate' weekly : ℤ}
    (h : Counts limits atMs s' windows' estimate')
    (hs : s = { s' with weeklyRemainingBp := weekly }) (hweekly : s'.weeklyRemainingBp ≤ weekly)
    (hmax : weekly ≤ 10000) (hwindows : 0 ≤ windows) (hestimate : 0 < estimate) :
    Counts limits atMs s windows estimate := by
  subst hs
  have hevaluable := h.evaluable
  simp only [isEvaluable, Bool.and_eq_true, decide_eq_true_eq] at hevaluable
  refine ⟨?_, h.reset, h.unmarked, h.recent⟩
  simp only [isEvaluable, Bool.and_eq_true, decide_eq_true_eq]
  have hnonneg : 0 ≤ weekly := by omega
  tauto

/-- A reading that counts is within its range, and so are the windows and the estimate. -/
lemma Counts.range (h : Counts limits atMs s windows estimate) :
    s.weeklyRemainingBp ≤ 10000 ∧ 0 ≤ windows ∧ 0 < estimate := by
  have hevaluable := h.evaluable
  simp only [isEvaluable, Bool.and_eq_true, decide_eq_true_eq] at hevaluable
  tauto

/-- More claims never help. -/
lemma Eligible.of_fewer_claims (hsub : claims.Sublist claims')
    (h : Eligible limits atMs s estimateBp remainingWindows claims') :
    Eligible limits atMs s estimateBp remainingWindows claims := by
  obtain ⟨windows, estimate, hwindows, hestimate, hcounts, hvalid, hafford⟩ := eligible_iff.mp h
  exact eligible_iff.mpr ⟨windows, estimate, hwindows, hestimate, hcounts,
    fun claim hclaim => hvalid claim (hsub.subset hclaim),
    hafford.mono le_rfl (debits_sublist hsub hvalid) le_rfl le_rfl⟩

/-- Neither does a larger estimate. -/
lemma Eligible.of_smaller_estimate {estimate' : ℤ} (hpos : 0 < estimate)
    (hle : estimate ≤ estimate')
    (h : Eligible limits atMs s (.int estimate') remainingWindows claims) :
    Eligible limits atMs s (.int estimate) remainingWindows claims := by
  obtain ⟨windows, _, hwindows, hestimate, hcounts, hvalid, hafford⟩ := eligible_iff.mp h
  obtain rfl := Option.some.inj hestimate
  obtain ⟨hmax, hnonneg, -⟩ := hcounts.range
  exact eligible_iff.mpr ⟨windows, estimate, hwindows, rfl,
    hcounts.mono rfl le_rfl hmax hnonneg hpos, hvalid, hafford.mono le_rfl le_rfl hle le_rfl⟩

/-- Nor more windows to share with. -/
lemma Eligible.of_fewer_windows {windows' : ℤ} (hnonneg : 0 ≤ windows) (hle : windows ≤ windows')
    (h : Eligible limits atMs s estimateBp (.int windows') claims) :
    Eligible limits atMs s estimateBp (.int windows) claims := by
  obtain ⟨_, estimate, hwindows, hestimate, hcounts, hvalid, hafford⟩ := eligible_iff.mp h
  obtain rfl := Option.some.inj hwindows
  obtain ⟨hmax, -, hpos⟩ := hcounts.range
  exact eligible_iff.mpr ⟨windows, estimate, rfl, hestimate,
    hcounts.mono rfl le_rfl hmax hnonneg hpos, hvalid, hafford.mono le_rfl le_rfl le_rfl hle⟩

/-- Nor a smaller remainder. -/
lemma Eligible.of_larger_remainder {lower : ℤ} (hmax : s.weeklyRemainingBp ≤ 10000)
    (hle : lower ≤ s.weeklyRemainingBp)
    (h : Eligible limits atMs { s with weeklyRemainingBp := lower } estimateBp remainingWindows
      claims) :
    Eligible limits atMs s estimateBp remainingWindows claims := by
  obtain ⟨windows, estimate, hwindows, hestimate, hcounts, hvalid, hafford⟩ := eligible_iff.mp h
  obtain ⟨-, hnonneg, hpos⟩ := hcounts.range
  exact eligible_iff.mpr ⟨windows, estimate, hwindows, hestimate,
    hcounts.mono rfl hle hmax hnonneg hpos, hvalid, hafford.mono hle le_rfl le_rfl le_rfl⟩

/-! ## Several pools -/

lemma mem_distinctPools {pool : Text} {requiredPools : List Text} :
    pool ∈ distinctPools requiredPools ↔ pool ∈ requiredPools := by
  have hfold : ∀ seen : List Text,
      pool ∈ requiredPools.foldl
        (fun pools pool => if pool ∈ pools then pools else pools ++ [pool]) seen ↔
        pool ∈ seen ∨ pool ∈ requiredPools := by
    induction requiredPools with
    | nil => simp
    | cons first rest ih =>
        intro seen
        rw [List.foldl_cons, ih]
        by_cases hseen : first ∈ seen
        · rw [if_pos hseen, List.mem_cons]
          constructor
          · rintro (h | h)
            · exact .inl h
            · exact .inr (.inr h)
          · rintro (h | rfl | h)
            · exact .inl h
            · exact .inl hseen
            · exact .inr h
        · rw [if_neg hseen, List.mem_append, List.mem_singleton, List.mem_cons, or_assoc]
  rw [distinctPools, hfold []]
  simp

/-- All pools are eligible together exactly when there are some and each is by itself. -/
lemma evaluatePools_eligible {requiredPools : List Text} {inputs : PoolInputs} :
    (evaluatePools requiredPools inputs).eligible = true ↔
      requiredPools ≠ [] ∧ ∀ pool ∈ requiredPools, (inputs.evaluate pool).eligible = true := by
  have hempty : distinctPools requiredPools = [] ↔ requiredPools = [] := by
    simp only [List.eq_nil_iff_forall_not_mem, mem_distinctPools]
  simp only [evaluatePools, Bool.and_eq_true, Bool.not_eq_true', List.isEmpty_eq_false_iff,
    List.all_map, List.all_eq_true, Function.comp_apply, mem_distinctPools, ne_eq, hempty]

/-! ## The guarantee -/

/-- Admissions keep the reserve; asking for more or having less never makes an estimate eligible;
and several pools are eligible when there are some and each of them is, in whatever order and
however often they are named. -/
theorem reserve_kept (limits : Limits) (s : QuotaSnapshot) :
    (∀ existing admitted, Admitted limits s existing admitted → admitted ≠ [] →
      KeepsReserve limits s (existing ++ admitted)) ∧
    (∀ atMs estimateBp remainingWindows claims claims', List.Sublist claims claims' →
      Eligible limits atMs s estimateBp remainingWindows claims' →
        Eligible limits atMs s estimateBp remainingWindows claims) ∧
    (∀ atMs remainingWindows claims estimate estimate', 0 < estimate → estimate ≤ estimate' →
      Eligible limits atMs s (.int estimate') remainingWindows claims →
        Eligible limits atMs s (.int estimate) remainingWindows claims) ∧
    (∀ atMs estimateBp claims windows windows', 0 ≤ windows → windows ≤ windows' →
      Eligible limits atMs s estimateBp (.int windows') claims →
        Eligible limits atMs s estimateBp (.int windows) claims) ∧
    (∀ atMs estimateBp remainingWindows claims lower, s.weeklyRemainingBp ≤ 10000 →
      lower ≤ s.weeklyRemainingBp →
      Eligible limits atMs { s with weeklyRemainingBp := lower } estimateBp remainingWindows
          claims →
        Eligible limits atMs s estimateBp remainingWindows claims) ∧
    ∀ requiredPools inputs,
      ((evaluatePools requiredPools inputs).eligible = true ↔
        requiredPools ≠ [] ∧ ∀ pool ∈ requiredPools, (inputs.evaluate pool).eligible = true) ∧
      ∀ requiredPools', (∀ pool, pool ∈ requiredPools ↔ pool ∈ requiredPools') →
        (evaluatePools requiredPools' inputs).eligible =
          (evaluatePools requiredPools inputs).eligible := by
  refine ⟨fun _ _ h hne => h.keepsReserve hne, fun _ _ _ _ _ hsub h => h.of_fewer_claims hsub,
    fun _ _ _ _ _ hpos hle h => h.of_smaller_estimate hpos hle,
    fun _ _ _ _ _ hnonneg hle h => h.of_fewer_windows hnonneg hle,
    fun _ _ _ _ _ hmax hle h => h.of_larger_remainder hmax hle, ?_⟩
  intro requiredPools inputs
  refine ⟨evaluatePools_eligible, ?_⟩
  intro requiredPools' hsame
  have hnil : requiredPools' = [] ↔ requiredPools = [] := by
    simp only [List.eq_nil_iff_forall_not_mem, hsame]
  rw [Bool.eq_iff_iff, evaluatePools_eligible, evaluatePools_eligible]
  simp only [ne_eq, hnil, hsame]

/-! ## A reading of a pool -/

def sampleReading : QuotaSnapshot where
  snapshotId := "snapshot-1"
  poolKey := "codex-main"
  weeklyRemainingBp := 5000
  observedAt := 1000
  recordedAt := 1000
  resetAt := 9000
  operator := "local:test"
  coveredClaimSeq := 3
  stale := false
  staleEventId := none

lemma eligible_sampleReading : Eligible {} 2000 sampleReading (.int 200) (.int 5) [] := by
  unfold Eligible
  decide

/-- Two hundred basis points are admitted with five windows left, and leave the reserve. -/
theorem reserve_kept_sampleReading : KeepsReserve {} sampleReading [(4, 200)] := by
  have hadmitted : Admitted {} sampleReading [] ([] ++ [(4, 200)]) :=
    .granted .start (List.Perm.refl _) eligible_sampleReading (by decide)
  exact (reserve_kept {} sampleReading).1 [] [(4, 200)] hadmitted (by simp)

/-- An estimate of nothing and a negative number of windows are refused where larger ones are not,
and so is an empty list of pools. -/
theorem not_reserve_kept :
    (¬ Eligible {} 2000 sampleReading (.int 0) (.int 5) [] ∧
      Eligible {} 2000 sampleReading (.int 200) (.int 5) []) ∧
    (¬ Eligible {} 2000 sampleReading (.int 200) (.int (-1)) [] ∧
      Eligible {} 2000 sampleReading (.int 200) (.int 5) []) ∧
    (evaluatePools [] ⟨[], [], [], .int 5, fun _ => 2000⟩).eligible = false := by
  unfold Eligible
  decide

end Kanban

end AgentOrch
