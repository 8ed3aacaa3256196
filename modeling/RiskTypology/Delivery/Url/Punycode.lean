/-!
# Punycode

The ASCII form of a label. Its ASCII characters come first; the others follow as differences of
their places, each a number whose digits tell by themselves where it ends.
-/

namespace RiskTypology.Punycode

/-- A digit of base thirty-six. -/
def digit (n : Nat) : Char := if n < 26 then Char.ofNat (n + 97) else Char.ofNat (n + 22)

/-- Value of a digit of base thirty-six. -/
def value? (c : Char) : Option Nat :=
  if c.isDigit then some (c.toNat - 22)
  else if c.isLower then some (c.toNat - 97)
  else if c.isUpper then some (c.toNat - 65)
  else none

/-- The threshold of the digit at a place; the last digit of a number lies below its own. -/
def threshold (place bias : Nat) : Nat := min 26 (max 1 (36 * (place + 1) - bias))

/-- The digits of a number. -/
def digits (bias : Nat) : Nat → Nat → Nat → List Char
  | 0, _, _ => []
  | fuel + 1, place, n =>
    let t := threshold place bias
    if n < t then [digit n]
    else digit (t + (n - t) % (36 - t)) :: digits bias fuel (place + 1) ((n - t) / (36 - t))

/-- Reduce a difference until it is small; also how often that took. -/
def reduce : Nat → Nat → Nat → Nat × Nat
  | 0, n, times => (n, times)
  | fuel + 1, n, times => if n ≤ 455 then (n, times) else reduce fuel (n / 35) (times + 1)

/-- The bias for the next number. -/
def adapt (delta count : Nat) (first : Bool) : Nat :=
  let start := if first then delta / 700 else delta / 2
  let (n, times) := reduce 64 (start + start / count) 0
  36 * times + 36 * n / (n + 38)

/-- An encoding under way. -/
structure Encoding where
  text : List Char
  delta : Nat := 0
  bias : Nat := 72
  /-- How many characters were written. -/
  written : Nat
  first : Bool := true

/-- Go past one character of the label, while all of a code point are written. -/
def Encoding.visit (point : Nat) (e : Encoding) (c : Char) : Encoding :=
  if c.toNat < point then { e with delta := e.delta + 1 }
  else if c.toNat = point then
    { text := e.text ++ digits e.bias 64 0 e.delta
      delta := 0
      bias := adapt e.delta (e.written + 1) e.first
      written := e.written + 1
      first := false }
  else e

/-- Write all characters of each code point, in ascending order. -/
def encodePoints (label : List Char) : Nat → List Nat → Encoding → Encoding
  | _, [], e => e
  | last, point :: rest, e =>
    let start := { e with delta := e.delta + (point - last) * (e.written + 1) }
    let done := label.foldl (Encoding.visit point) start
    encodePoints label (point + 1) rest { done with delta := done.delta + 1 }

/-- Encode a label. -/
def encode (label : List Char) : List Char :=
  let ascii := label.filter fun c ↦ c.toNat < 128
  let points := ((label.map Char.toNat).filter fun n ↦ 128 ≤ n).eraseDups.mergeSort
  let head := if ascii.isEmpty then [] else ascii ++ ['-']
  (encodePoints label 128 points { text := head, written := ascii.length }).text

/-- Read a number, and what follows it. -/
def number? (bias : Nat) : Nat → Nat → Nat → List Char → Option (Nat × List Char)
  | _, _, _, [] => none
  | place, weight, sum, c :: rest => do
    let d ← value? c
    let t := threshold place bias
    let sum := sum + d * weight
    if 2 ^ 32 ≤ sum then none
    else if d < t then return (sum, rest)
    else number? bias (place + 1) (weight * (36 - t)) sum rest

/-- Decode numbers into characters. -/
def decodeFrom : Nat → Nat → Nat → Nat → Bool → List Char → List Char → Option (List Char)
  | 0, _, _, _, _, _, _ => none
  | _ + 1, _, _, _, _, [], label => some label
  | fuel + 1, point, place, bias, first, cs, label => do
    let (delta, rest) ← number? bias 0 1 0 cs
    let count := label.length + 1
    let total := place + delta
    let next := point + total / count
    let spot := total % count
    if next.isValidChar then
      decodeFrom fuel next (spot + 1) (adapt delta count first) false rest
        (label.take spot ++ Char.ofNat next :: label.drop spot)
    else none

/-- Decode a label. -/
def decode? (cs : List Char) : Option (List Char) :=
  let tail := (cs.reverse.takeWhile (· != '-')).reverse
  let head := cs.take (cs.length - tail.length - 1)
  if tail.length = cs.length then decodeFrom (cs.length + 1) 128 0 72 true cs []
  else decodeFrom (cs.length + 1) 128 0 72 true tail head

end RiskTypology.Punycode
