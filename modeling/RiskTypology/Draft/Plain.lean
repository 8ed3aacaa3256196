import RiskTypology.Draft.Fault
import RiskTypology.Decimal.Numeral

/-!
# Bare scalars

What a bare scalar can be read as. Integers may be hexadecimal, octal or binary; digits after a
leading zero are no integer; infinities and NaN begin with a point.
-/

namespace RiskTypology.Plain

/-- The spellings of null. -/
def isNull (s : String) : Bool := s == "null" || s == "Null" || s == "NULL" || s == "~"

/-- The spellings of the truth values. -/
def bool? (s : String) : Option Bool :=
  if s == "true" || s == "True" || s == "TRUE" then some true
  else if s == "false" || s == "False" || s == "FALSE" then some false
  else none

/-- Value of a character as a digit of a base. -/
def digit? (base : Nat) (c : Char) : Option Nat :=
  let n := c.toNat
  let value :=
    if 0x30 ≤ n ∧ n ≤ 0x39 then n - 0x30
    else if 0x61 ≤ n ∧ n ≤ 0x7A then n - 0x61 + 10
    else if 0x41 ≤ n ∧ n ≤ 0x5A then n - 0x41 + 10
    else base
  if value < base then some value else none

/-- Value of a nonempty run of digits of a base. -/
def digits? (base : Nat) : List Char → Option Nat
  | [] => none
  | cs => cs.foldl (fun acc c ↦ do return base * (← acc) + (← digit? base c)) (some 0)

/-- A sign and the characters after it. -/
def sign : List Char → Option Char × List Char
  | '+' :: cs => (some '+', cs)
  | '-' :: cs => (some '-', cs)
  | cs => (none, cs)

/-- Digits after a leading zero. -/
def isPadded (cs : List Char) : Bool :=
  match cs with
  | '0' :: c :: rest => (c :: rest).all Char.isDigit
  | _ => false

/-- Magnitude of an integer, in any of its bases, without a sign. -/
def magnitude? (cs : List Char) : Option Nat :=
  let based := match cs with
    | '0' :: 'x' :: rest => digits? 16 rest
    | '0' :: 'o' :: rest => digits? 8 rest
    | '0' :: 'b' :: rest => digits? 2 rest
    | _ => none
  based.orElse fun _ ↦ if isPadded cs then none else digits? 10 cs

/-- An integer; its size is not limited here. -/
def int? (s : String) : Option Int :=
  match sign s.toList with
  | (some '-', cs) => (magnitude? cs).map fun n ↦ -(n : Int)
  | (_, cs) => (magnitude? cs).map Int.ofNat

/-- A word of sixty-four bits. -/
def word? (s : String) : Option UInt64 :=
  match sign s.toList with
  | (some '-', _) => none
  | (_, cs) => ((magnitude? cs).filter (· < UInt64.size)).map Nat.toUInt64

/-- A float. -/
def float? (s : String) : Option Float :=
  match sign s.toList with
  | (negative, cs) =>
    let word := String.ofList cs
    if word == ".inf" || word == ".Inf" || word == ".INF" then
      some (if negative = some '-' then -1.0 / 0.0 else 1.0 / 0.0)
    else if negative = none && (word == ".nan" || word == ".NaN" || word == ".NAN") then
      some (0.0 / 0.0)
    else Decimal.readFinite? s

/-- The value of a bare scalar when no kind is wanted. Integers beyond sixty-four bits are
refused as long as they have at most a hundred and twenty-eight, and are floats beyond. -/
def value (s : String) : Except Fault Json :=
  if s.isEmpty || isNull s then .ok .null
  else match bool? s with
    | some b => .ok (.bool b)
    | none =>
      match int? s with
      | some i =>
        if -(Nat.pow 2 63 : Int) ≤ i ∧ i < UInt64.size then .ok (.int i)
        else if -(Nat.pow 2 127 : Int) ≤ i ∧ i < Nat.pow 2 128 then
          .error (.refused "integer out of range")
        else floatOrText
      | none => floatOrText
where
  floatOrText : Except Fault Json :=
    if isPadded (sign s.toList).2 then .ok (.str s)
    else match float? s with
      | some x => .ok (.float x)
      | none => .ok (.str s)

end RiskTypology.Plain
