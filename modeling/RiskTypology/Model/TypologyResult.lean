import RiskTypology.Model.NetworkMap

/-!
# Typology results

What is reported about one typology: the rule results gathered for it, its score and the
thresholds the score was held against.
-/

namespace RiskTypology

/-- Stands for a score or threshold as long as nothing has been scored. -/
def unscoredMark : Float := -1.0

/-- The thresholds as they are reported. -/
structure ReportedThresholds where
  alert : Float := unscoredMark
  interdiction : Option Float := none

/-- The report on one typology. -/
structure TypologyResult where
  id : String
  cfg : String
  result : Float
  ruleResults : List RuleResult
  review : Bool := false
  workflow : ReportedThresholds
  /-- Time taken by the evaluation, in nanoseconds. -/
  duration : Option UInt64 := none

namespace ReportedThresholds

/-- The record's wire fields. -/
def shape : Shape := ⟨"ResultWorkflow", ["alertThreshold", "interdictionThreshold"]⟩

/-- Read reported thresholds. -/
def read : Reader ReportedThresholds :=
  Draft.record shape fun p ↦
    ReportedThresholds.mk <$> p.required "alertThreshold" Draft.number <*>
      p.optional "interdictionThreshold" Draft.number

/-- The wire form. -/
def toJson (t : ReportedThresholds) : Json :=
  .obj (("alertThreshold", Json.ofFloat t.alert) ::
    Json.member? "interdictionThreshold" (t.interdiction.map Json.ofFloat))

end ReportedThresholds

namespace TypologyResult

/-- The record's wire fields. -/
def shape : Shape :=
  ⟨"TypologyResult", ["id", "cfg", "result", "ruleResults", "review", "workflow", "prcgTm"]⟩

/-- Read a typology result. -/
def read : Reader TypologyResult :=
  Draft.record shape fun p ↦
    TypologyResult.mk <$> p.required "id" Draft.text <*> p.required "cfg" Draft.text <*>
      p.required "result" Draft.number <*>
      p.required "ruleResults" (Draft.list RuleResult.read) <*>
      p.orElse "review" false Draft.flag <*> p.required "workflow" ReportedThresholds.read <*>
      p.optional "prcgTm" Draft.word

/-- The wire form; a duration that is not known is left out. -/
def toJson (t : TypologyResult) : Json :=
  .obj ([("id", .str t.id), ("cfg", .str t.cfg), ("result", Json.ofFloat t.result),
      ("ruleResults", .arr (t.ruleResults.map RuleResult.toJson)), ("review", .bool t.review),
      ("workflow", t.workflow.toJson)] ++
    Json.member? "prcgTm" (t.duration.map fun n ↦ .int n.toNat))

/-- A report that holds the gathered results and nothing else yet. -/
def unscored (id cfg : String) (results : List RuleResult) : TypologyResult :=
  ⟨id, cfg, unscoredMark, results, false, {}, none⟩

/-- Whether the score is something else than the mark. -/
def isScored (t : TypologyResult) : Bool := t.result != unscoredMark

/-- How many different rules have reported. -/
def gatheredCount (t : TypologyResult) : Nat := RuleResult.distinctCount t.ruleResults

/-- What identifies the typology: its id and version. -/
def key (t : TypologyResult) : String × String := (t.id, t.cfg)

end TypologyResult
end RiskTypology
