import RiskTypology.Draft.Read

/-!
# Rule results

The outcome of one rule for one transaction, with its form on the wire.
-/

namespace RiskTypology

/-- Outcome of one rule for one transaction. -/
structure RuleResult where
  id : String
  cfg : String
  /-- Which outcome of the rule it is; weights hang on it. -/
  subRuleRef : String
  result : Bool := false
  reason : Option String := none
  /-- Processing time in nanoseconds. -/
  duration : Option UInt64 := none
  /-- Contribution to a typology's score, filled in when it is scored. -/
  weight : Option Float := none

namespace RuleResult

/-- The record's wire fields. -/
def shape : Shape :=
  ⟨"RuleResult", ["id", "cfg", "subRuleRef", "result", "reason", "prcgTm", "wght"]⟩

/-- Read a rule result. -/
def read : Reader RuleResult :=
  Draft.record shape fun p ↦
    RuleResult.mk <$> p.required "id" Draft.text <*> p.required "cfg" Draft.text <*>
      p.required "subRuleRef" Draft.text <*> p.orElse "result" false Draft.flag <*>
      p.optional "reason" Draft.text <*> p.optional "prcgTm" Draft.word <*>
      p.optional "wght" Draft.number

/-- The wire form; what is not known is left out. -/
def toJson (r : RuleResult) : Json :=
  .obj ([("id", .str r.id), ("cfg", .str r.cfg), ("subRuleRef", .str r.subRuleRef),
      ("result", .bool r.result)] ++
    Json.member? "reason" (r.reason.map .str) ++
    Json.member? "prcgTm" (r.duration.map fun n ↦ .int n.toNat) ++
    Json.member? "wght" (r.weight.map Json.ofFloat))

/-- The distinct rule ids of some results, in the order of their first result. -/
def distinctIds (results : List RuleResult) : List String := (results.map (·.id)).eraseDups

/-- How many different rules have reported. -/
def distinctCount (results : List RuleResult) : Nat := (distinctIds results).length

end RuleResult
end RiskTypology
