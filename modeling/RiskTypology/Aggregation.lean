import RiskTypology.Model.TypologyResult

/-!
# Aggregating rule results

When a rule reports, every typology waiting for it is told what has been gathered for it so far.
-/

namespace RiskTypology

/-- What a new rule result gives rise to. -/
structure Aggregation where
  /-- The typologies it touches, each with the results gathered for it. -/
  results : List TypologyResult
  /-- How many different rules the map waits for. -/
  ruleCount : Nat

/-- The typologies some listing of which waits for a result, in the order of the first such
listing. -/
def touchedBy (map : NetworkMap) (new : RuleResult) : List (String × String) :=
  ((map.typologies.filter (·.requires new)).map Typology.key).eraseDups

/-- The gathered results a typology waits for, in their order. -/
def relevant (map : NetworkMap) (gathered : List RuleResult) (id cfg : String) :
    List RuleResult :=
  let required := map.requiredRuleIds id cfg
  gathered.filter fun r ↦ required.contains r.id

/-- The unscored report on a typology, if anything has been gathered for it. -/
def report? (map : NetworkMap) (gathered : List RuleResult) (key : String × String) :
    Option TypologyResult :=
  match relevant map gathered key.1 key.2 with
  | [] => none
  | results => some (.unscored key.1 key.2 results)

/-- Group the gathered results by the typologies a new result touches. -/
def aggregate (map : NetworkMap) (gathered : List RuleResult) (new : RuleResult) : Aggregation :=
  ⟨(touchedBy map new).filterMap (report? map gathered), map.ruleCount⟩

end RiskTypology
