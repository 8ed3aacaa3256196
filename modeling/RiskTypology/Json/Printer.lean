import RiskTypology.Json.Basic
import RiskTypology.Decimal.Layout

/-!
# Writing JSON text

Compact text, without blanks. Floats have the wire layout, so that they read back as floats.
-/

namespace RiskTypology.Json

/-- A character inside a JSON string. -/
def escapeChar (c : Char) : List Char :=
  if c = '\x22' then ['\\', '\x22']
  else if c = '\\' then ['\\', '\\']
  else if c = '\n' then ['\\', 'n']
  else if c = '\r' then ['\\', 'r']
  else if c = '\t' then ['\\', 't']
  else if c.toNat = 8 then ['\\', 'b']
  else if c.toNat = 12 then ['\\', 'f']
  else if c.toNat < 0x20 then
    let digits := Nat.toDigits 16 c.toNat
    '\\' :: 'u' :: List.replicate (4 - digits.length) '0' ++ digits
  else [c]

/-- A JSON string with its quotes. -/
def quote (s : String) : String :=
  String.ofList ('\x22' :: s.toList.flatMap escapeChar ++ ['\x22'])

mutual

/-- Compact text of a value. -/
def compress : Json → String
  | .null => "null"
  | .bool b => if b then "true" else "false"
  | .int i => toString i
  | .float x => if x.isFinite then Decimal.Layout.wire.text x else "null"
  | .str s => quote s
  | .arr items => "[" ++ String.intercalate "," (compressItems items) ++ "]"
  | .obj members => "\x7b" ++ String.intercalate "," (compressMembers members) ++ "\x7d"

/-- The texts of the items of a list. -/
def compressItems : List Json → List String
  | [] => []
  | j :: rest => compress j :: compressItems rest

/-- The texts of the members of an object, with their names. -/
def compressMembers : List (String × Json) → List String
  | [] => []
  | (n, v) :: rest => (quote n ++ ":" ++ compress v) :: compressMembers rest

end

end RiskTypology.Json
