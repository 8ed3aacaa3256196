/-!
# Reading positions in YAML text

Two versions of the format are read. The older one is stricter about tabs, directives and the
characters of a text, the newer one about what may follow on a line.
-/

namespace RiskTypology.Yaml

/-- Why YAML text cannot be read. -/
inductive ScanFault where
  /-- A character that may not stand here. -/
  | character
  /-- A line that is indented wrongly. -/
  | indentation
  /-- A tab where only spaces may stand. -/
  | tab
  /-- Something stands where the line should end. -/
  | lineEnd
  | unclosedQuote
  | escape
  | directive
  | tag
  | anchor
  /-- A key, a value or an entry that may not begin here. -/
  | keyPosition
  /-- A key without its colon. -/
  | colonMissing
  | bracket
  /-- Tokens that make no document. -/
  | nesting
  | unknownAnchor
  | repeatedKey
  | manyDocuments
deriving DecidableEq, Repr

/-- A version of the format. -/
inductive Version where
  | v11
  | v12
deriving DecidableEq, Repr

/-- Line breaks. -/
def isBreak (c : Char) : Bool := c == '\n' || c == '\r'

/-- Spaces and tabs. -/
def isBlank (c : Char) : Bool := c == ' ' || c == '\t'

/-- The indicators of flow collections. -/
def isFlow (c : Char) : Bool := c == ',' || c == '[' || c == ']' || c == '\x7b' || c == '\x7d'

/-- Characters of names. -/
def isWord (c : Char) : Bool := c.isAlphanum || c == '-' || c == '_'

/-- Characters a text may have at all; the newer version does not look at them. -/
def Version.admits (v : Version) (c : Char) : Bool :=
  let n := c.toNat
  v == .v12 || n == 9 || n == 10 || n == 13 || (0x20 ≤ n && n ≤ 0x7E) || n == 0x85 ||
    (0xA0 ≤ n && n ≤ 0xFFFD && n != 0xFEFF) || 0x10000 ≤ n

/-- Whether a word ends here: at a blank, a break or the end of the text. -/
def endsWord : List Char → Bool
  | [] => true
  | c :: _ => isBlank c || isBreak c

/-- Whether a line ends here. -/
def endsLine : List Char → Bool
  | [] => true
  | c :: _ => isBreak c

/-- Whether the next character is one of a class. -/
def nextIs (p : Char → Bool) : List Char → Bool
  | [] => false
  | c :: _ => p c

/-- Whether a marker of a document's start stands here. -/
def isStartMarker : List Char → Bool
  | '-' :: '-' :: '-' :: rest => endsWord rest
  | _ => false

/-- Whether a marker of a document's end stands here. -/
def isEndMarker : List Char → Bool
  | '.' :: '.' :: '.' :: rest => endsWord rest
  | _ => false

/-- Whether any marker stands here. -/
def isMarker (cs : List Char) : Bool := isStartMarker cs || isEndMarker cs

/-- A position: what is still to be read, and where it stands. -/
structure Cursor where
  rest : List Char
  index : Nat := 0
  line : Nat := 0
  column : Nat := 0
  /-- Whether the line had nothing but blanks so far. -/
  fresh : Bool := true

namespace Cursor

/-- Pass over the longest run of characters of a class, which holds no break. -/
def span (c : Cursor) (p : Char → Bool) : List Char × Cursor :=
  let run := c.rest.takeWhile p
  (run, { c with
    rest := c.rest.dropWhile p
    index := c.index + run.length
    column := c.column + run.length
    fresh := c.fresh && run.all isBlank })

/-- Pass over some characters of the line. -/
def skipMany (c : Cursor) (count : Nat) : Cursor :=
  { c with
    rest := c.rest.drop count
    index := c.index + (c.rest.take count).length
    column := c.column + (c.rest.take count).length
    fresh := c.fresh && (c.rest.take count).all isBlank }

/-- Pass over one character of the line. -/
def skip (c : Cursor) : Cursor := c.skipMany 1

/-- Pass over a break; a carriage return and a line feed behind it are one. -/
def skipBreak (c : Cursor) : Cursor :=
  match c.rest with
  | '\r' :: '\n' :: rest => ⟨rest, c.index + 2, c.line + 1, 0, true⟩
  | _ :: rest => ⟨rest, c.index + 1, c.line + 1, 0, true⟩
  | [] => c

/-- Pass over the rest of the line. -/
def skipLine (c : Cursor) : Cursor := (c.span fun x ↦ !isBreak x).2

/-- Pass over blanks and a comment, up to what else stands on the line; also the blanks. In the
newer version a comment must follow a blank. -/
def lineTail (v : Version) (c : Cursor) : Except ScanFault (List Char × Cursor) :=
  let (blanks, after) := c.span isBlank
  match after.rest with
  | '#' :: _ =>
    if blanks.isEmpty && v == .v12 then .error .lineEnd else .ok (blanks, after.skipLine)
  | _ => .ok (blanks, after)

end Cursor
end RiskTypology.Yaml
