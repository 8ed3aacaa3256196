/-!
# Scoring expressions

A typology's score is an arithmetic expression over terms, which stand for the weights of rule
results.
-/

namespace RiskTypology

/-- An operation of a scoring expression. -/
inductive Operator where
  | add
  | subtract
  | multiply
  | divide
deriving DecidableEq, Repr

namespace Operator

/-- The token of an operator. -/
def token : Operator → String
  | .add => "+"
  | .subtract => "-"
  | .multiply => "*"
  | .divide => "/"

/-- The operator of a token; nothing but the token itself will do. -/
def ofToken? (s : String) : Option Operator :=
  if s = "+" then some .add
  else if s = "-" then some .subtract
  else if s = "*" then some .multiply
  else if s = "/" then some .divide
  else none

/-- Apply an operator to a running value. Dividing by zero keeps the running value. -/
def apply : Operator → Float → Float → Float
  | .add, acc, x => acc + x
  | .subtract, acc, x => acc - x
  | .multiply, acc, x => acc * x
  | .divide, acc, x => if x == 0.0 then acc else acc / x

/-- Exactly the four tokens name operators. -/
theorem ofToken?_eq_some_iff {s : String} {op : Operator} :
    ofToken? s = some op ↔ s = op.token := by
  unfold ofToken?
  constructor
  · intro h
    split at h
    · next hs => cases h; exact hs
    split at h
    · next hs => cases h; exact hs
    split at h
    · next hs => cases h; exact hs
    split at h
    · next hs => cases h; exact hs
    cases h
  · rintro rfl
    cases op <;> decide

end Operator

/-- A scoring expression. -/
inductive Expression where
  | literal (x : Float)
  | term (name : String)
  | apply (operator : Operator) (operands : List Expression)

end RiskTypology
