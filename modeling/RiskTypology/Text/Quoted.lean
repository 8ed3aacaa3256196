import RiskTypology.Text.Printable

/-!
# Quoted text in diagnostics

Diagnostics show text between double quotes. Quotes, backslashes and the usual controls get a
short escape, every other character that is not shown as itself its code point in braces.
-/

namespace RiskTypology.Text

/-- A character of quoted text. -/
def quoteChar (c : Char) : List Char :=
  if c = '\x22' then ['\\', '\x22']
  else if c = '\\' then ['\\', '\\']
  else if c = '\n' then ['\\', 'n']
  else if c = '\r' then ['\\', 'r']
  else if c = '\t' then ['\\', 't']
  else if c.toNat = 0 then ['\\', '0']
  else if isPrintable c then [c]
  else '\\' :: 'u' :: '\x7b' :: Nat.toDigits 16 c.toNat ++ ['\x7d']

/-- Text between double quotes, as diagnostics show it. -/
def quoted (s : String) : String :=
  String.ofList ('\x22' :: s.toList.flatMap quoteChar ++ ['\x22'])

/-- A list of texts, as diagnostics show it. -/
def quotedList (xs : List String) : String :=
  "[" ++ String.intercalate ", " (xs.map quoted) ++ "]"

end RiskTypology.Text
