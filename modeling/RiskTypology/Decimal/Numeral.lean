import RiskTypology.Decimal.Shortest

/-!
# Reading decimal numerals

A numeral is digits with a power of ten. Its float is the nearest one; magnitudes far outside the
range of doubles are decided before any power is computed.
-/

namespace RiskTypology.Decimal

/-- A signed decimal numeral `± digits · 10 ^ exponent`. -/
structure Numeral where
  negative : Bool
  digits : Nat
  exponent : Int
deriving DecidableEq, Repr

/-- Value of a run of decimal digits. -/
def digitsValue (ds : List Char) : Nat := ds.foldl (fun n d ↦ 10 * n + (d.toNat - 48)) 0

/-- Leading decimal digits and what follows them. -/
def spanDigits (cs : List Char) : List Char × List Char :=
  (cs.takeWhile Char.isDigit, cs.dropWhile Char.isDigit)

/-- The numeral `whole.fraction · 10 ^ exponent`. -/
def Numeral.ofParts (negative : Bool) (whole fraction : List Char) (exponent : Int) : Numeral :=
  ⟨negative, digitsValue (whole ++ fraction), exponent - fraction.length⟩

/-- The nearest double; numerals beyond the range give an infinity. -/
def Numeral.toFloat (n : Numeral) : Float :=
  let size := n.exponent + digitCount n.digits
  let magnitude : Float :=
    if n.digits = 0 ∨ size < -330 then 0.0
    else if 310 < size then 1.0 / 0.0
    else if 0 ≤ n.exponent then Float.ofScientific n.digits false n.exponent.toNat
    else Float.ofScientific n.digits true (-n.exponent).toNat
  if n.negative then -magnitude else magnitude

/-- A sign, if there is one, and what follows it. -/
def spanSign : List Char → Bool × List Char
  | '-' :: cs => (true, cs)
  | '+' :: cs => (false, cs)
  | cs => (false, cs)

/-- A whole exponent mark, or nothing where the text ends. -/
def exponent? : List Char → Option Int
  | [] => some 0
  | c :: cs =>
    if c = 'e' ∨ c = 'E' then
      let (negative, ds) := spanSign cs
      match spanDigits ds with
      | ([], _) => none
      | (run, []) => some (if negative then -(digitsValue run : Int) else digitsValue run)
      | (_, _ :: _) => none
    else none

/-- An unsigned numeral: digits with an optional point and exponent, and a digit on at least one
side of the point. -/
def unsigned? (negative : Bool) (cs : List Char) : Option Numeral :=
  let (whole, rest) := spanDigits cs
  let (fraction, rest) := match rest with
    | '.' :: more => spanDigits more
    | _ => ([], rest)
  if whole.isEmpty ∧ fraction.isEmpty then none
  else (exponent? rest).map (Numeral.ofParts negative whole fraction)

/-- Read a whole text as a float. Besides numerals, the words for infinity and NaN count, in any
case of their letters. -/
def readFloat? (text : String) : Option Float :=
  let (negative, cs) := spanSign text.toList
  let word := String.ofList (cs.map Char.toLower)
  if word = "inf" ∨ word = "infinity" then some (if negative then -1.0 / 0.0 else 1.0 / 0.0)
  else if word = "nan" then some (0.0 / 0.0)
  else (unsigned? negative cs).map Numeral.toFloat

/-- Read a whole text as a finite float. -/
def readFinite? (text : String) : Option Float := (readFloat? text).filter Float.isFinite

end RiskTypology.Decimal
