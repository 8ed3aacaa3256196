/-!
# The shortest decimal of a binary float

A finite double is a dyadic number, and every real that is nearer to it than to its neighbours
reads back as it. Of the decimals in that interval we take one with the fewest digits, and of
those the nearest. All comparisons are exact, on naturals.
-/

namespace RiskTypology.Decimal

/-- The number `mantissa · 2 ^ exponent`. -/
structure Dyadic where
  mantissa : Nat
  exponent : Int
deriving DecidableEq, Repr

/-- The number `digits · 10 ^ exponent`. -/
structure Scaled where
  digits : Nat
  exponent : Int
deriving DecidableEq, Repr

/-- The reals that round to one float; the ends belong to it when `closed`. -/
structure Interval where
  low : Dyadic
  value : Dyadic
  high : Dyadic
  closed : Bool
deriving DecidableEq, Repr

/-- Number of decimal digits; zero has one. -/
def digitCount (n : Nat) : Nat := (Nat.toDigits 10 n).length

/-- Exact order of a decimal and a dyadic number. -/
def Scaled.compare (d : Scaled) (b : Dyadic) : Ordering :=
  Ord.compare (d.digits * Nat.pow 10 d.exponent.toNat * Nat.pow 2 (-b.exponent).toNat)
    (b.mantissa * Nat.pow 2 b.exponent.toNat * Nat.pow 10 (-d.exponent).toNat)

/-- The greatest `n` with `n · 10 ^ unit` at most the given number. -/
def Dyadic.floorAt (b : Dyadic) (unit : Int) : Nat :=
  b.mantissa * Nat.pow 2 b.exponent.toNat * Nat.pow 10 (-unit).toNat /
    (Nat.pow 2 (-b.exponent).toNat * Nat.pow 10 unit.toNat)

/-- The power of ten of the leading digit of a positive double. -/
def Dyadic.leading (b : Dyadic) : Int :=
  digitCount (b.floorAt (-400)) - 401

/-- The interval of a float's magnitude, read off its sixty-four bits. Below a power of two the
next float is only half as far away. -/
def Interval.ofFloat (x : Float) : Interval :=
  let bits := x.toBits.toNat
  let unit := Nat.pow 2 52
  let field := bits / unit % Nat.pow 2 11
  let fraction := bits % unit
  let mantissa := if field = 0 then fraction else fraction + unit
  let exponent : Int := (if field = 0 then 1 else field : Nat) - 1077
  let below := if fraction = 0 ∧ 1 < field then 1 else 2
  ⟨⟨4 * mantissa - below, exponent⟩, ⟨4 * mantissa, exponent⟩, ⟨4 * mantissa + 2, exponent⟩,
    mantissa % 2 == 0⟩

/-- Membership of a decimal in the interval. -/
def Interval.contains (i : Interval) (d : Scaled) : Bool :=
  match d.compare i.low, d.compare i.high with
  | .gt, .lt => true
  | .eq, _ => i.closed
  | _, .eq => i.closed
  | _, _ => false

/-- The interval's point on the grid of `10 ^ unit`: of the two grid points around the value
those inside count, the nearer first, and of two equally near ones the even one. -/
def Interval.onGrid (i : Interval) (unit : Int) : Option Scaled :=
  let below := i.value.floorAt unit
  let lower : Scaled := ⟨below, unit⟩
  let upper : Scaled := ⟨below + 1, unit⟩
  match i.contains lower, i.contains upper with
  | true, true =>
    match Scaled.compare ⟨2 * below + 1, unit⟩ ⟨2 * i.value.mantissa, i.value.exponent⟩ with
    | .gt => some lower
    | .lt => some upper
    | .eq => some (if below % 2 = 0 then lower else upper)
  | true, false => some lower
  | false, true => some upper
  | false, false => none

/-- Drop trailing zeros into the exponent. -/
def Scaled.reduce (d : Scaled) : Scaled :=
  if h : d.digits ≠ 0 ∧ d.digits % 10 = 0 then
    Scaled.reduce ⟨d.digits / 10, d.exponent + 1⟩
  else d
termination_by d.digits
decreasing_by exact Nat.div_lt_self (Nat.pos_of_ne_zero h.1) (by decide)

/-- The shortest decimal that reads back as the magnitude of a finite float: the first grid, from
one digit to seventeen, with a point in the interval. -/
def shortest (x : Float) : Scaled :=
  let i := Interval.ofFloat x
  if i.value.mantissa = 0 then ⟨0, 0⟩ else
    let top := i.value.leading
    match (List.range 17).findSome? fun n : Nat ↦ i.onGrid (top - n) with
    | some d => d.reduce
    | none => (Scaled.mk (i.value.floorAt (top - 16)) (top - 16)).reduce

/-- Whether the sign bit of a float is set. -/
def isNegative (x : Float) : Bool := x.toBits.toNat / Nat.pow 2 63 == 1

end RiskTypology.Decimal
