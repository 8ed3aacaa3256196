import RiskTypology.Expression.Basic
import RiskTypology.Draft.Read

/-!
# Expressions on the wire

On the wire an expression is a number, a text, or a list such as `["+", "a", ["*", "b", 2]]`. In a
list the first text that is an operator token names the operation, wherever it stands, and all
other elements are its operands in their order. Writing puts the operator first.

A value is first read whole as a form, which fails if anything but numbers, texts and lists occurs
in it; only then are operators looked for, outer lists before inner ones.
-/

namespace RiskTypology

/-- A value made of numbers, texts and lists. -/
inductive PrefixForm where
  | number (x : Float)
  | token (s : String)
  | nested (elements : List PrefixForm)

namespace PrefixForm

mutual

/-- The form of a value, if it is made of numbers, texts and lists. -/
def ofJson? : Json → Option PrefixForm
  | .int i => some (.number (Float.ofInt i))
  | .float x => some (.number x)
  | .str s => some (.token s)
  | .arr items => do return .nested (← ofItems? items)
  | _ => none

/-- The forms of a list of values. -/
def ofItems? : List Json → Option (List PrefixForm)
  | [] => some []
  | j :: rest => do return (← ofJson? j) :: (← ofItems? rest)

end

mutual

/-- A form as diagnostics show it. -/
def describe : PrefixForm → String
  | .number x => "Number(" ++ Decimal.Layout.diagnostic.text x ++ ")"
  | .token s => "Token(" ++ Text.quoted s ++ ")"
  | .nested elements => "Nested([" ++ describeAll elements ++ "])"

/-- Elements as diagnostics show them. -/
def describeAll : List PrefixForm → String
  | [] => ""
  | [e] => describe e
  | e :: rest => describe e ++ ", " ++ describeAll rest

end

/-- The operator a form names by itself. -/
def operator? : PrefixForm → Option Operator
  | .token s => Operator.ofToken? s
  | _ => none

/-- The reason to refuse a list without an operator. -/
def noOperator (elements : List PrefixForm) : String :=
  "expression [" ++ describeAll elements ++ "] has no operator"

mutual

/-- The expression of a form. -/
def toExpression : PrefixForm → Except Fault Expression
  | .number x => .ok (.literal x)
  | .token s => .ok (.term s)
  | .nested elements =>
    match elements.findSome? operator? with
    | none => .error (.refused (noOperator elements))
    | some op => do return .apply op (← operands elements)

/-- The operands among elements whose operator is still to come. -/
def operands : List PrefixForm → Except Fault (List Expression)
  | [] => .ok []
  | e :: rest =>
    match operator? e with
    | some _ => plainOperands rest
    | none => do return (← toExpression e) :: (← operands rest)

/-- The operands among elements behind the operator. -/
def plainOperands : List PrefixForm → Except Fault (List Expression)
  | [] => .ok []
  | e :: rest => do return (← toExpression e) :: (← plainOperands rest)

end

end PrefixForm

namespace Expression

/-- The expression of a value. -/
def ofJson (j : Json) : Except Fault Expression :=
  match PrefixForm.ofJson? j with
  | some form => form.toExpression
  | none => .error (.noAlternative "RawExpression")

/-- Read an expression; the draft is read whole before its meaning is looked at. -/
def read : Reader Expression := fun d ↦ do ofJson (← d.toJson)

mutual

/-- The wire form, with the operator first. -/
def toJson : Expression → Json
  | .literal x => Json.ofFloat x
  | .term name => .str name
  | .apply op operands => .arr (.str op.token :: toItems operands)

/-- The wire forms of operands. -/
def toItems : List Expression → List Json
  | [] => []
  | e :: rest => toJson e :: toItems rest

end

end Expression
end RiskTypology
