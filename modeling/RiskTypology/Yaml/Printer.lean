import RiskTypology.Yaml.Value
import RiskTypology.Json.Printer

/-!
# Writing YAML text

One document in block style, two columns to a level. Text is quoted where it would read as
something else, or where anything but plain characters occurs in it.
-/

namespace RiskTypology.Yaml

/-- Words that read as truth values or null, in one version of the format or the other. -/
def reservedWords : List String :=
  ["y", "Y", "yes", "Yes", "YES", "n", "N", "no", "No", "NO", "true", "True", "TRUE", "false",
    "False", "FALSE", "on", "On", "ON", "off", "Off", "OFF", "null", "Null", "NULL", "~"]

/-- Characters that text may not begin with. -/
def isLeadingMark (c : Char) : Bool := " .&*?|-<>=!%@".toList.contains c

/-- Characters that text may not hold. -/
def isMark (c : Char) : Bool :=
  let n := c.toNat
  ":\x7b\x7d[],#\x60\x22'\\".toList.contains c || n ≤ 6 || c == '\t' || c == '\n' || c == '\r' ||
    (0x0E ≤ n && n ≤ 0x1A) || (0x1C ≤ n && n ≤ 0x1F)

/-- Whether text has to be quoted. -/
def needsQuotes (s : String) : Bool :=
  let cs := s.toList
  cs.isEmpty || nextIs isLeadingMark cs || cs.getLast? == some ' ' || cs.any isMark ||
    reservedWords.contains s || cs.take 2 == ['0', 'x'] || (Value.int? 10 cs).isSome ||
    (Decimal.readFloat? s).isSome

/-- A character between quotes. -/
def escapeChar (c : Char) : List Char :=
  if c.toNat = 0x7F then "\\u007f".toList else Json.escapeChar c

/-- Text between quotes. -/
def quote (s : String) : String :=
  String.ofList ('\x22' :: s.toList.flatMap escapeChar ++ ['\x22'])

/-- A line end and the indentation of a level. -/
def newLine (level : Nat) : String := "\n" ++ String.ofList (List.replicate (2 * level) ' ')

namespace Value

/-- Whether a value takes lines of its own. -/
def isNested : Value → Bool
  | .list items => !items.isEmpty
  | .map entries => !entries.isEmpty
  | _ => false

/-- Whether a value is a collection, empty ones included. -/
def isCollection : Value → Bool
  | .list _ => true
  | .map _ => true
  | _ => false

/-- What goes between an indicator and a value: the first line of a collection may follow the
indicator of a sequence, but not the colon of a key that is a scalar. -/
def lead (v : Value) (inline : Bool) (level : Nat) : String :=
  if v.isNested && !inline then newLine level else " "

mutual

/-- The text of a value whose lines belong to a level. -/
def render (level : Nat) : Value → String
  | .null => "~"
  | .bad => "~"
  | .bool b => if b then "true" else "false"
  | .int i => toString i
  | .real text => text
  | .str s => if needsQuotes s then quote s else s
  | .list items => if items.isEmpty then "[]" else renderItems level items
  | .map entries => if entries.isEmpty then "\x7b\x7d" else renderEntries level entries

/-- The lines of a sequence. -/
def renderItems (level : Nat) : List Value → String
  | [] => ""
  | v :: rest =>
    "-" ++ v.lead true (level + 1) ++ render (level + 1) v ++
      (if rest.isEmpty then "" else newLine level ++ renderItems level rest)

/-- The lines of a mapping; a key that is a collection stands behind a question mark. -/
def renderEntries (level : Nat) : List (Value × Value) → String
  | [] => ""
  | (k, v) :: rest =>
    (if k.isCollection then
      "?" ++ k.lead true (level + 1) ++ render (level + 1) k ++ newLine level ++ ":" ++
        v.lead true (level + 1)
    else render level k ++ ":" ++ v.lead false (level + 1)) ++ render (level + 1) v ++
      (if rest.isEmpty then "" else newLine level ++ renderEntries level rest)

end

/-- The text of a document. -/
def toText (v : Value) : String := "---\n" ++ render 0 v

end Value
end RiskTypology.Yaml
