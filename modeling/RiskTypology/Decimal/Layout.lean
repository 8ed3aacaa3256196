import RiskTypology.Decimal.Shortest

/-!
# Layouts of float text

A layout says which decimal exponents are written positionally; all others get an exponent.
Positional numbers always keep a point, so that a float never reads as an integer.
-/

namespace RiskTypology.Decimal

/-- The decimal exponents that are written positionally. -/
structure Layout where
  least : Int
  most : Int
deriving DecidableEq, Repr

/-- Numbers on the wire are positional from `1e-5` up to below `1e16`. -/
def Layout.wire : Layout := ⟨-5, 15⟩

/-- Numbers in diagnostics are positional from `1e-4` up to below `1e16`. -/
def Layout.diagnostic : Layout := ⟨-4, 15⟩

/-- A run of zeros. -/
private def zeros (n : Nat) : List Char := List.replicate n '0'

/-- The characters of a nonnegative decimal in a layout. -/
def Layout.digits (l : Layout) (d : Scaled) : List Char :=
  let ds := Nat.toDigits 10 d.digits
  let point : Int := ds.length + d.exponent
  if l.least ≤ point - 1 ∧ point - 1 ≤ l.most then
    if 0 ≤ d.exponent then ds ++ zeros d.exponent.toNat ++ ['.', '0']
    else if 0 < point then ds.take point.toNat ++ '.' :: ds.drop point.toNat
    else '0' :: '.' :: zeros (-point).toNat ++ ds
  else
    match ds with
    | [] => []
    | [c] => c :: 'e' :: (toString (point - 1)).toList
    | c :: rest => c :: '.' :: rest ++ 'e' :: (toString (point - 1)).toList

/-- Text of a float in a layout; infinities and NaN are words. -/
def Layout.text (l : Layout) (x : Float) : String :=
  if x.isNaN then "NaN"
  else
    let magnitude := if x.isInf then ['i', 'n', 'f'] else l.digits (shortest x)
    String.ofList (if isNegative x then '-' :: magnitude else magnitude)

end RiskTypology.Decimal
