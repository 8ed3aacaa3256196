import RiskTypology.Model.Definition

/-!
# Verdicts

What a score means under a definition's thresholds. A threshold that is reached counts; one that
is not set is never reached.
-/

namespace RiskTypology

/-- What is counted while events are processed. -/
inductive Metric where
  | alerts
  | interdictions
  | evaluations
  | dispatchFailures
  | cleanups
deriving DecidableEq, Repr

/-- The name under which a metric is published. -/
def Metric.name : Metric → String
  | .alerts => "typology_alerts_total"
  | .interdictions => "typology_interdictions_total"
  | .evaluations => "typology_evaluation_seconds"
  | .dispatchFailures => "typology_dispatch_failures_total"
  | .cleanups => "typology_cache_cleanups_total"

/-- The meaning of a score. -/
inductive Verdict where
  | interdict
  | alert
  | clear
deriving DecidableEq, Repr

/-- Whether a score reaches a threshold. -/
def reaches (score : Float) : Option Float → Bool
  | some threshold => score ≥ threshold
  | none => false

/-- A threshold is reached if it is there and the score is not below it. -/
theorem reaches_iff {score : Float} {threshold : Option Float} :
    reaches score threshold = true ↔ ∃ t ∈ threshold, score ≥ t := by
  cases threshold <;> simp [reaches]

namespace Verdict

/-- The verdict on a score; interdiction is looked at first. -/
def ofScore (score : Float) (t : Thresholds) : Verdict :=
  if reaches score t.interdiction then .interdict
  else if reaches score t.alert then .alert
  else .clear

/-- Whether somebody should look at the result. -/
def needsReview : Verdict → Bool
  | .clear => false
  | _ => true

/-- What a verdict counts as. Everything that needs review is an alert. -/
def metrics : Verdict → List Metric
  | .interdict => [.alerts, .interdictions]
  | .alert => [.alerts]
  | .clear => []

/-- The name of a verdict. -/
def name : Verdict → String
  | .interdict => "Interdiction"
  | .alert => "Alert"
  | .clear => "Clear"

/-- The verdict is to interdict exactly when the interdiction threshold is reached. -/
theorem ofScore_eq_interdict_iff {score : Float} {t : Thresholds} :
    ofScore score t = .interdict ↔ reaches score t.interdiction = true := by
  unfold ofScore
  split
  · simp [*]
  · split <;> simp [*]

/-- A score needs review exactly when it reaches one of the thresholds. -/
theorem needsReview_ofScore_iff {score : Float} {t : Thresholds} :
    (ofScore score t).needsReview = true ↔
      reaches score t.interdiction = true ∨ reaches score t.alert = true := by
  unfold ofScore
  split
  · simp [needsReview, *]
  · split <;> simp [needsReview, *]

/-- A result needs review exactly when it counts as an alert. -/
theorem needsReview_iff (v : Verdict) : v.needsReview = true ↔ Metric.alerts ∈ v.metrics := by
  cases v <;> simp [needsReview, metrics]

end Verdict
end RiskTypology
