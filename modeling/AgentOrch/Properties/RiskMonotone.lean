import AgentOrch.Construction.Risk
import Mathlib.Order.MinMax

/-!
# More rules, more caution

Rules are added to a file to raise the assessment of a task.  The verdict follows the rules in one
case only where the defaults do not interfere: a default of `high` is replaced, not kept, once some
rule marks the text `medium` and none marks it `high`.

`cautious_iff` says that this is the one case: elsewhere the highest of the default and all matched
severities wins, and with more rules nothing that restrains a task is relaxed.
-/

namespace AgentOrch

open Py

namespace Risk

variable {ops : TextOps} {rules first second : RiskRules} {text : Text}

/-! ## The highest severity -/

/-- The severity a rule asks for. -/
def RiskRule.severity (rule : RiskRule) : Level :=
  if rule.marksHigh then .high else if rule.marksMedium then .medium else .low

/-- The highest of the default and all matched severities. -/
def RiskRules.highest (ops : TextOps) (rules : RiskRules) (text : Text) : Level :=
  ((rules.matching ops text).map RiskRule.severity).foldr max rules.defaultRisk

/-- The verdict is the highest severity. -/
def HighestWins (ops : TextOps) (rules : RiskRules) (text : Text) : Prop :=
  (rules.evaluate ops text).risk = rules.highest ops text

/-- No default of `high` is replaced by a rule that only says `medium`. -/
def DefaultStands (ops : TextOps) (rules : RiskRules) (text : Text) : Prop :=
  rules.defaultRisk = .high → (rules.matching ops text).any RiskRule.marksMedium = true →
    (rules.matching ops text).any RiskRule.marksHigh = true

lemma Level.le_high (l : Level) : l ≤ .high := by cases l <;> decide

lemma Level.low_le (l : Level) : .low ≤ l := by cases l <;> decide

lemma foldr_max_le {start bound : Level} {levels : List Level} :
    levels.foldr max start ≤ bound ↔ start ≤ bound ∧ ∀ l ∈ levels, l ≤ bound := by
  induction levels with
  | nil => simp
  | cons l levels ih =>
      rw [List.foldr_cons, max_le_iff, ih, List.forall_mem_cons]
      tauto

lemma highest_le {bound : Level} :
    rules.highest ops text ≤ bound ↔ rules.defaultRisk ≤ bound ∧
      ∀ rule ∈ rules.matching ops text, rule.severity ≤ bound := by
  rw [RiskRules.highest, foldr_max_le, List.forall_mem_map]

/-- A matched rule never asks for more than the verdict. -/
lemma severity_le_evaluate {rule : RiskRule} (hrule : rule ∈ rules.matching ops text) :
    rule.severity ≤ (rules.evaluate ops text).risk := by
  have hhigh : rule.marksHigh = true → (rules.matching ops text).any RiskRule.marksHigh = true :=
    fun h => List.any_eq_true.mpr ⟨rule, hrule, h⟩
  have hmedium : rule.marksMedium = true →
      (rules.matching ops text).any RiskRule.marksMedium = true :=
    fun h => List.any_eq_true.mpr ⟨rule, hrule, h⟩
  unfold RiskRule.severity RiskRules.evaluate
  dsimp only
  split
  · next h => rw [if_pos (hhigh h)]
  · split
    · next h =>
      rw [if_pos (hmedium h)]
      split
      · exact Level.le_high _
      · exact le_refl _
    · exact Level.low_le _

/-- The verdict is asked for by the default or by a matched rule. -/
lemma evaluate_le_highest : (rules.evaluate ops text).risk ≤ rules.highest ops text := by
  have htop : rules.highest ops text ≤ rules.highest ops text := le_refl _
  obtain ⟨hdefault, hrules⟩ := highest_le.mp htop
  unfold RiskRules.evaluate
  dsimp only
  split
  · next h =>
    obtain ⟨rule, hrule, hmarks⟩ := List.any_eq_true.mp h
    have hsevere : rule.severity = .high := if_pos hmarks
    exact hsevere ▸ hrules rule hrule
  · split
    · next hnone h =>
      obtain ⟨rule, hrule, hmarks⟩ := List.any_eq_true.mp h
      have hmild : rule.severity = .medium := by
        have hlow : ¬ rule.marksHigh = true := fun hmarks' =>
          hnone (List.any_eq_true.mpr ⟨rule, hrule, hmarks'⟩)
        rw [RiskRule.severity, if_neg hlow, if_pos hmarks]
      exact hmild ▸ hrules rule hrule
    · exact hdefault

/-- The default is kept unless it is `high` and only `medium` was matched. -/
lemma default_le_evaluate (h : DefaultStands ops rules text) :
    rules.defaultRisk ≤ (rules.evaluate ops text).risk := by
  unfold RiskRules.evaluate
  dsimp only
  split
  · exact Level.le_high _
  · next hhigh =>
    split
    · next hmedium =>
      cases hdefault : rules.defaultRisk with
      | low => exact Level.low_le _
      | medium => exact le_refl _
      | high => exact absurd (h hdefault hmedium) hhigh
    · exact le_refl _

lemma highestWins_iff : HighestWins ops rules text ↔ DefaultStands ops rules text := by
  constructor
  · intro h hdefault hmedium
    by_contra hhigh
    have hle : rules.defaultRisk ≤ (rules.evaluate ops text).risk := by
      rw [h]
      exact (highest_le.mp (le_refl _)).1
    rw [hdefault, RiskRules.evaluate] at hle
    dsimp only at hle
    rw [if_neg hhigh, if_pos hmedium] at hle
    exact absurd hle (by decide)
  · intro h
    exact le_antisymm evaluate_le_highest
      (highest_le.mpr ⟨default_le_evaluate h, fun _ => severity_le_evaluate⟩)

/-! ## One file with all the rules of another -/

/-- The second file has the defaults of the first, and all its rules. -/
structure Extends (first second : RiskRules) : Prop where
  rules : first.rules ⊆ second.rules
  defaultRisk : first.defaultRisk = second.defaultRisk
  defaultRequireStopGate : first.defaultRequireStopGate = second.defaultRequireStopGate

lemma Extends.matching (h : Extends first second) :
    first.matching ops text ⊆ second.matching ops text := by
  intro rule hrule
  obtain ⟨hmem, hmatch⟩ := List.mem_filter.mp hrule
  exact List.mem_filter.mpr ⟨h.rules hmem, hmatch⟩

lemma Extends.any_matching (h : Extends first second) {p : RiskRule → Bool}
    (hany : (first.matching ops text).any p = true) : (second.matching ops text).any p = true := by
  obtain ⟨rule, hrule, hp⟩ := List.any_eq_true.mp hany
  exact List.any_eq_true.mpr ⟨rule, h.matching hrule, hp⟩

lemma Extends.highest (h : Extends first second) :
    first.highest ops text ≤ second.highest ops text := by
  have htop : second.highest ops text ≤ second.highest ops text := le_refl _
  obtain ⟨hdefault, hrules⟩ := highest_le.mp htop
  exact highest_le.mpr ⟨h.defaultRisk ▸ hdefault, fun rule hrule => hrules rule (h.matching hrule)⟩

/-- What a task is judged on besides the rules. -/
structure Judged where
  text : Text
  taskType : Text
  approvedSpecGiven : Bool
  scopeAmbiguous : Bool
  record : TaskText

def Judged.signals (j : Judged) (ops : TextOps) (rules : RiskRules) : Signals :=
  Risk.signals ops rules j.text j.taskType j.approvedSpecGiven j.scopeAmbiguous

def Judged.risk (j : Judged) (ops : TextOps) (rules : RiskRules) : RiskLevels :=
  riskFromSignals ops j.record (j.signals ops rules)

/-- Under the second file nothing that restrains the task is relaxed. -/
structure AtLeastAsRestrictive (ops : TextOps) (j : Judged) (first second : RiskRules) : Prop where
  risk : (first.evaluate ops j.text).risk ≤ (second.evaluate ops j.text).risk
  requireStopGate : (first.evaluate ops j.text).requireStopGate = true →
    (second.evaluate ops j.text).requireStopGate = true
  requireHumanAck : (first.evaluate ops j.text).requireHumanAck = true →
    (second.evaluate ops j.text).requireHumanAck = true
  implementation : (j.risk ops first).implementation ≤ (j.risk ops second).implementation
  semantic : (j.risk ops first).semantic ≤ (j.risk ops second).semantic
  stopGate : stopGate ops first j.text (j.risk ops first) = true →
    stopGate ops second j.text (j.risk ops second) = true
  autoStart : ∀ preflightStatus routeSource,
    autoStart preflightStatus (j.risk ops second) routeSource = true →
      autoStart preflightStatus (j.risk ops first) routeSource = true

/-- Signals that raise the risk at least as much. -/
structure Signals.Raises (s s' : Signals) : Prop where
  high : s.pathTouchesHighRisk = true → s'.pathTouchesHighRisk = true
  medium : s.pathTouchesMediumRisk = true →
    s'.pathTouchesMediumRisk = true ∨ s'.pathTouchesHighRisk = true
  required : s.openspecRequired = true → s'.openspecRequired = true
  present : s.openspecPresent = s'.openspecPresent

lemma signals_raises {j : Judged}
    (hrisk : (first.evaluate ops j.text).risk ≤ (second.evaluate ops j.text).risk) :
    (j.signals ops first).Raises (j.signals ops second) := by
  have hhigh : (first.evaluate ops j.text).high = true → (second.evaluate ops j.text).high = true := by
    intro h
    have htop : (first.evaluate ops j.text).risk = .high := of_decide_eq_true h
    rw [htop] at hrisk
    exact decide_eq_true (le_antisymm (Level.le_high _) hrisk)
  have hmedium : (first.evaluate ops j.text).medium = true →
      (second.evaluate ops j.text).medium = true ∨ (second.evaluate ops j.text).high = true := by
    intro h
    have hmid : (first.evaluate ops j.text).risk = .medium := of_decide_eq_true h
    rw [hmid] at hrisk
    cases hsecond : (second.evaluate ops j.text).risk with
    | low => exact absurd (hsecond ▸ hrisk) (by decide)
    | medium => exact .inl (decide_eq_true hsecond)
    | high => exact .inr (decide_eq_true hsecond)
  constructor
  · intro h
    rcases Bool.or_eq_true_iff.mp h with h | h
    · exact Bool.or_eq_true_iff.mpr (.inl h)
    · exact Bool.or_eq_true_iff.mpr (.inr (hhigh h))
  · intro h
    rcases Bool.or_eq_true_iff.mp h with h | h
    · exact .inl (Bool.or_eq_true_iff.mpr (.inl h))
    · rcases hmedium h with h | h
      · exact .inl (Bool.or_eq_true_iff.mpr (.inr h))
      · exact .inr (Bool.or_eq_true_iff.mpr (.inr h))
  · intro h
    rcases Bool.or_eq_true_iff.mp h with h | h
    · exact Bool.or_eq_true_iff.mpr (.inl h)
    · refine Bool.or_eq_true_iff.mpr (.inr ?_)
      rcases Bool.or_eq_true_iff.mp h with h | h
      · exact Bool.or_eq_true_iff.mpr (.inl h)
      · exact Bool.or_eq_true_iff.mpr (.inr (hhigh h))
  · rfl

lemma implementation_le {task : TaskText} {s s' : Signals} (h : s.Raises s') :
    (riskFromSignals ops task s).implementation ≤ (riskFromSignals ops task s').implementation := by
  unfold riskFromSignals
  dsimp only
  split
  · next hhigh => rw [if_pos (h.high hhigh)]
  · split
    · next hmedium =>
      rcases h.medium hmedium with hmedium' | hhigh'
      · rw [if_pos hmedium']
        split
        · exact Level.le_high _
        · exact le_refl _
      · rw [if_pos hhigh']
        exact Level.le_high _
    · exact Level.low_le _

lemma semantic_le {task : TaskText} {s s' : Signals} (h : s.Raises s') :
    (riskFromSignals ops task s).semantic ≤ (riskFromSignals ops task s').semantic := by
  unfold riskFromSignals
  dsimp only
  cases hrequired : s.openspecRequired with
  | false => exact Level.low_le _
  | true => rw [h.required hrequired, h.present]

/-- With a verdict that does not drop, nothing else is relaxed. -/
lemma atLeastAsRestrictive_of_risk {j : Judged} (h : Extends first second)
    (hrisk : (first.evaluate ops j.text).risk ≤ (second.evaluate ops j.text).risk) :
    AtLeastAsRestrictive ops j first second := by
  have hraises := signals_raises hrisk
  have himplementation : (j.risk ops first).implementation ≤ (j.risk ops second).implementation :=
    implementation_le hraises
  have hsemantic : (j.risk ops first).semantic ≤ (j.risk ops second).semantic := semantic_le hraises
  have htop : ∀ {l l' : Level}, l ≤ l' → l = .high → l' = .high :=
    fun hle heq => le_antisymm (Level.le_high _) (heq ▸ hle)
  have hgate : (first.evaluate ops j.text).requireStopGate = true →
      (second.evaluate ops j.text).requireStopGate = true := by
    intro hfirst
    rcases Bool.or_eq_true_iff.mp hfirst with hfirst | hfirst
    · exact Bool.or_eq_true_iff.mpr (.inl (h.defaultRequireStopGate ▸ hfirst))
    · exact Bool.or_eq_true_iff.mpr (.inr (h.any_matching hfirst))
  refine ⟨hrisk, hgate, h.any_matching, himplementation, hsemantic, ?_, ?_⟩
  · intro hfirst
    unfold stopGate at hfirst ⊢
    by_cases hrule : (second.evaluate ops j.text).requireStopGate = true
    · simp only [if_pos hrule]
    · simp only [if_neg fun hf => hrule (hgate hf), if_neg hrule, Bool.or_eq_true] at hfirst ⊢
      rcases hfirst with ((hsmoke | hhigh) | hpath) | hkeyword
      · exact .inl (.inl (.inl hsmoke))
      · exact .inl (.inl (.inr (decide_eq_true (htop himplementation (of_decide_eq_true hhigh)))))
      · exact .inl (.inr hpath)
      · exact .inr hkeyword
  · intro preflightStatus routeSource hsecond
    unfold autoStart at hsecond ⊢
    split at hsecond
    · cases hsecond
    · next hpass =>
      split at hsecond
      · cases hsecond
      · next hlow =>
        rw [if_neg hpass, if_neg fun hhigh => hlow (hhigh.imp (htop himplementation) (htop hsemantic))]
        exact hsecond

/-- The highest severity wins under both files and the longer one is at least as restrictive, exactly
where no default of `high` gives way to a rule that says `medium`. -/
theorem cautious_iff {j : Judged} (h : Extends first second) :
    (AtLeastAsRestrictive ops j first second ∧ HighestWins ops first j.text ∧
        HighestWins ops second j.text) ↔
      DefaultStands ops first j.text ∧ DefaultStands ops second j.text := by
  constructor
  · rintro ⟨-, hfirst, hsecond⟩
    exact ⟨highestWins_iff.mp hfirst, highestWins_iff.mp hsecond⟩
  · rintro ⟨hfirst, hsecond⟩
    have hwins := highestWins_iff.mpr hfirst
    have hwins' := highestWins_iff.mpr hsecond
    refine ⟨atLeastAsRestrictive_of_risk h ?_, hwins, hwins'⟩
    calc (first.evaluate ops j.text).risk = first.highest ops j.text := hwins
      _ ≤ second.highest ops j.text := h.highest
      _ = (second.evaluate ops j.text).risk := hwins'.symm

/-- A rule that asks for medium risk where the text says `publish`. -/
def publishRule : RiskRule := ⟨"publish", "publish", .mediumRisk, .markMediumRisk, .substring, none⟩

def highByDefault : RiskRules := ⟨[], .high, false⟩

def highByDefaultWithRule : RiskRules := ⟨[publishRule], .high, false⟩

def publishNotes : Judged :=
  ⟨"publish the notes", "unknown", true, false, ⟨"publish the notes", none, true⟩⟩

/-- One rule added to a file whose default is `high`: the task may start unattended. -/
theorem not_cautious_publish :
    Extends highByDefault highByDefaultWithRule ∧
      ¬ AtLeastAsRestrictive .ascii publishNotes highByDefault highByDefaultWithRule ∧
      autoStart (some "pass") (publishNotes.risk .ascii highByDefault) "rule" = false ∧
      autoStart (some "pass") (publishNotes.risk .ascii highByDefaultWithRule) "rule" = true := by
  refine ⟨⟨List.nil_subset _, rfl, rfl⟩, fun h => ?_, by decide, by decide⟩
  exact absurd h.risk (by decide)

/-- A rule added to a file whose default is `low` makes the highest severity win. -/
theorem cautious_publish :
    AtLeastAsRestrictive .ascii publishNotes ⟨[], .low, false⟩ ⟨[publishRule], .low, false⟩ ∧
      HighestWins .ascii ⟨[], .low, false⟩ publishNotes.text ∧
      HighestWins .ascii ⟨[publishRule], .low, false⟩ publishNotes.text := by
  have h : Extends ⟨[], .low, false⟩ ⟨[publishRule], .low, false⟩ := ⟨List.nil_subset _, rfl, rfl⟩
  exact (cautious_iff h).mpr ⟨fun hdefault => (nomatch hdefault), fun hdefault => (nomatch hdefault)⟩

end Risk

end AgentOrch
