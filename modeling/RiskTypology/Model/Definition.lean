import RiskTypology.Expression.PrefixForm

/-!
# Typology definitions

How a typology is scored: weights for the outcomes of its rules, an expression over them, and the
thresholds its score is held against.
-/

namespace RiskTypology

/-- Weight of one outcome of a rule. -/
structure Weight where
  ref : String
  weight : Float

/-- The weights of a rule, under the term that stands for it. -/
structure RuleWeights where
  id : String
  cfg : String
  term : String
  weights : List Weight

/-- Scores from which a typology alerts or interdicts. -/
structure Thresholds where
  alert : Option Float := none
  interdiction : Option Float := none

/-- Scoring definition of one typology. -/
structure Definition where
  id : String
  cfg : String
  desc : Option String := none
  rules : List RuleWeights
  expression : Expression
  workflow : Thresholds

namespace Weight

/-- The record's wire fields. -/
def shape : Shape := ⟨"Weight", ["ref", "wght"]⟩

/-- Read a weight. -/
def read : Reader Weight :=
  Draft.record shape fun p ↦
    Weight.mk <$> p.required "ref" Draft.text <*> p.required "wght" Draft.number

/-- The wire form. -/
def toJson (w : Weight) : Json := .obj [("ref", .str w.ref), ("wght", Json.ofFloat w.weight)]

end Weight

namespace RuleWeights

/-- The record's wire fields. -/
def shape : Shape := ⟨"RuleValue", ["id", "cfg", "termId", "wghts"]⟩

/-- Read the weights of a rule. -/
def read : Reader RuleWeights :=
  Draft.record shape fun p ↦
    RuleWeights.mk <$> p.required "id" Draft.text <*> p.required "cfg" Draft.text <*>
      p.required "termId" Draft.text <*> p.required "wghts" (Draft.list Weight.read)

/-- The wire form. -/
def toJson (r : RuleWeights) : Json :=
  .obj [("id", .str r.id), ("cfg", .str r.cfg), ("termId", .str r.term),
    ("wghts", .arr (r.weights.map Weight.toJson))]

end RuleWeights

namespace Thresholds

/-- The record's wire fields. -/
def shape : Shape := ⟨"Workflow", ["alertThreshold", "interdictionThreshold"]⟩

/-- Read thresholds. -/
def read : Reader Thresholds :=
  Draft.record shape fun p ↦
    Thresholds.mk <$> p.optional "alertThreshold" Draft.number <*>
      p.optional "interdictionThreshold" Draft.number

/-- The wire form. -/
def toJson (t : Thresholds) : Json :=
  .obj (Json.member? "alertThreshold" (t.alert.map Json.ofFloat) ++
    Json.member? "interdictionThreshold" (t.interdiction.map Json.ofFloat))

end Thresholds

namespace Definition

/-- What identifies a definition: its typology's id and version. -/
def key (d : Definition) : String × String := (d.id, d.cfg)

/-- The record's wire fields. -/
def shape : Shape :=
  ⟨"TypologyExpression", ["id", "cfg", "desc", "rules", "expression", "workflow"]⟩

/-- Read a definition. -/
def read : Reader Definition :=
  Draft.record shape fun p ↦
    Definition.mk <$> p.required "id" Draft.text <*> p.required "cfg" Draft.text <*>
      p.optional "desc" Draft.text <*> p.required "rules" (Draft.list RuleWeights.read) <*>
      p.required "expression" Expression.read <*> p.required "workflow" Thresholds.read

/-- The wire form. -/
def toJson (d : Definition) : Json :=
  .obj ([("id", .str d.id), ("cfg", .str d.cfg)] ++
    Json.member? "desc" (d.desc.map .str) ++
    [("rules", .arr (d.rules.map RuleWeights.toJson)), ("expression", d.expression.toJson),
      ("workflow", d.workflow.toJson)])

end Definition
end RiskTypology
