import RiskTypology.Model.Definition
import RiskTypology.Model.RuleResult
import RiskTypology.Text.Blank

/-!
# Evaluating expressions

The weight of a rule result is found by its rule, version and outcome; of several table entries
the last counts. Its term stands for that weight, and of several results with one term the last
counts. A term without weight is read as a number, and is zero and unresolved when it is none.
-/

namespace RiskTypology

/-- An entry of a weight table. -/
structure WeightEntry where
  id : String
  cfg : String
  ref : String
  term : String
  weight : Float

namespace WeightEntry

/-- The entries of a table, in order. -/
def ofRules (rules : List RuleWeights) : List WeightEntry :=
  rules.flatMap fun r ↦ r.weights.map fun w ↦ ⟨r.id, r.cfg, w.ref, r.term, w.weight⟩

/-- Whether an entry gives the weight of a result. -/
def covers (e : WeightEntry) (r : RuleResult) : Bool :=
  e.id == r.id && e.cfg == r.cfg && e.ref == r.subRuleRef

end WeightEntry

/-- The table's entry for a result: the last that covers it. -/
def findWeight? (rules : List RuleWeights) (r : RuleResult) : Option WeightEntry :=
  (WeightEntry.ofRules rules).findRev? (·.covers r)

/-- A result with its weight from the table; without an entry it stays as it is. -/
def weigh (rules : List RuleWeights) (r : RuleResult) : RuleResult :=
  match findWeight? rules r with
  | some e => { r with weight := some e.weight }
  | none => r

/-- The weight a term stands for: that of the last result whose entry has the term. -/
def termWeight? (rules : List RuleWeights) (results : List RuleResult) (term : String) :
    Option Float :=
  ((results.filterMap (findWeight? rules)).findRev? (·.term == term)).map (·.weight)

/-- The number a term spells by itself, blanks around it aside. -/
def termNumber? (term : String) : Option Float := Decimal.readFinite? (Text.trim term)

namespace Expression

/-- Fold an operator over operands from the left; without operands it gives zero. -/
def foldOperands (op : Operator) : List Float → Float
  | [] => 0.0
  | x :: rest => rest.foldl op.apply x

mutual

/-- Value of an expression where `env` gives the weights of terms. -/
def value (env : String → Option Float) : Expression → Float
  | .literal x => x
  | .term name => ((env name).orElse fun _ ↦ termNumber? name).getD 0.0
  | .apply op operands => foldOperands op (values env operands)

/-- Values of operands. -/
def values (env : String → Option Float) : List Expression → List Float
  | [] => []
  | e :: rest => value env e :: values env rest

end

mutual

/-- The terms that have no weight and are no number, from left to right with repeats. -/
def unresolved (env : String → Option Float) : Expression → List String
  | .literal _ => []
  | .term name => if ((env name).orElse fun _ ↦ termNumber? name).isSome then [] else [name]
  | .apply _ operands => unresolvedAll env operands

/-- The unresolved terms of operands. -/
def unresolvedAll (env : String → Option Float) : List Expression → List String
  | [] => []
  | e :: rest => unresolved env e ++ unresolvedAll env rest

end

end Expression

/-- What an evaluation gave. -/
structure Evaluation where
  value : Float
  /-- Terms that had no weight and were no number. -/
  unresolved : List String
  /-- The rule results with their weights. -/
  results : List RuleResult

namespace Evaluation

/-- Whether the value is finite and no term was left unresolved. -/
def isNumeric (e : Evaluation) : Bool := e.value.isFinite && e.unresolved.isEmpty

end Evaluation

/-- Evaluate an expression against rule results. -/
def evaluate (rules : List RuleWeights) (results : List RuleResult) (expression : Expression) :
    Evaluation :=
  let env := termWeight? rules results
  ⟨expression.value env, expression.unresolved env, results.map (weigh rules)⟩

/-- Score rule results by a definition. -/
def Definition.score (d : Definition) (results : List RuleResult) : Evaluation :=
  evaluate d.rules results d.expression

end RiskTypology
