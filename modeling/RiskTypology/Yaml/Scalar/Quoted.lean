import RiskTypology.Yaml.Scalar.Gap
import RiskTypology.Draft.Plain

/-!
# Scanning quoted scalars

Between single quotes only a doubled quote means something else than itself; between double
quotes a backslash begins an escape, or hides the end of a line.
-/

namespace RiskTypology.Yaml.QuotedScalar

/-- The character of a one-letter escape. -/
def escape? : Char → Option Char
  | '0' => some (Char.ofNat 0)
  | 'a' => some '\x07'
  | 'b' => some '\x08'
  | 't' => some '\t'
  | '\t' => some '\t'
  | 'n' => some '\n'
  | 'v' => some '\x0b'
  | 'f' => some '\x0c'
  | 'r' => some '\r'
  | 'e' => some '\x1b'
  | ' ' => some ' '
  | '\x22' => some '\x22'
  | '/' => some '/'
  | '\\' => some '\\'
  | 'N' => some '\x85'
  | '_' => some '\xa0'
  | 'L' => some '\u2028'
  | 'P' => some '\u2029'
  | _ => none

/-- How many hexadecimal digits follow the letter of an escape. -/
def hexLength? : Char → Option Nat
  | 'x' => some 2
  | 'u' => some 4
  | 'U' => some 8
  | _ => none

/-- The character of an escape behind its backslash, and the length of the escape there. -/
def unescape : List Char → Except ScanFault (Char × Nat)
  | [] => .error .escape
  | c :: rest =>
    match escape? c, hexLength? c with
    | some x, _ => .ok (x, 1)
    | none, none => .error .escape
    | none, some n =>
      match Plain.digits? 16 (rest.take n) with
      | some code =>
        if (rest.take n).length = n ∧ code.isValidChar then .ok (Char.ofNat code, n + 1)
        else .error .escape
      | none => .error .escape

/-- Scan a word, up to a blank, a break, the end or the closing quote; whether it ended with an
escaped line end is told too. -/
def word (single : Bool) : Nat → Cursor → List Char →
    Except ScanFault (List Char × Bool × Cursor)
  | 0, c, text => .ok (text, false, c)
  | fuel + 1, c, text =>
    match c.rest with
    | [] => .ok (text, false, c)
    | x :: rest =>
      if isBlank x || isBreak x then .ok (text, false, c)
      else if single then
        if x = '\x27' then
          if nextIs (· == '\x27') rest then word single fuel (c.skipMany 2) (text ++ ['\x27'])
          else .ok (text, false, c)
        else word single fuel c.skip (text ++ [x])
      else if x = '\x22' then .ok (text, false, c)
      else if x = '\\' then
        if nextIs isBreak rest then .ok (text, true, c.skip.skipBreak)
        else
          match unescape rest with
          | .ok (y, n) => word single fuel (c.skipMany (n + 1)) (text ++ [y])
          | .error e => .error e
      else word single fuel c.skip (text ++ [x])

/-- What becomes of a tab at the front of a line inside the scalar. -/
def onTab (v : Version) (indent : Int) (c : Cursor) : Except ScanFault Cursor :=
  if v == .v12 && decide ((c.column : Int) < indent) then .error .tab else .ok c.skip

/-- Scan word after word, up to the closing quote. -/
def scanFrom (v : Version) (single : Bool) (indent : Int) :
    Nat → Cursor → List Char → Except ScanFault (List Char × Cursor)
  | 0, _, _ => .error .unclosedQuote
  | fuel + 1, c, text => do
    if c.column == 0 && isMarker c.rest then throw .unclosedQuote
    if c.rest.isEmpty then throw .unclosedQuote
    if v == .v12 && decide ((c.column : Int) < indent) then throw .indentation
    let (text, escaped, after) ← word single (c.rest.length + 1) c text
    match after.rest, escaped with
    | x :: _, false =>
      if !isBlank x && !isBreak x then return (text, after.skip)
    | _, _ => pure ()
    let start := if escaped then Gap.escaped else {}
    let (gap, after) ← Gap.scan (onTab v indent) (after.rest.length + 1) after start
    scanFrom v single indent fuel after (text ++ gap.text)

/-- Whether the rest of the line may follow a quoted scalar. -/
def checkTail (flow oneLine : Bool) (cs : List Char) : Bool :=
  endsLine cs ||
    match cs with
    | ',' :: _ => flow
    | ']' :: _ => flow
    | '\x7d' :: _ => flow
    | ':' :: _ => flow || oneLine
    | _ => false

/-- Scan a quoted scalar from its opening quote on. -/
def scan (v : Version) (flow single : Bool) (indent : Int) (c : Cursor) :
    Except ScanFault (String × Cursor) := do
  let (text, after) ← scanFrom v single indent (c.rest.length + 1) c.skip []
  match v with
  | .v11 => return (String.ofList text, after)
  | .v12 =>
    let (_, tail) ← after.lineTail v
    if checkTail flow (c.line == tail.line) tail.rest then return (String.ofList text, tail)
    else throw .lineEnd

end RiskTypology.Yaml.QuotedScalar
