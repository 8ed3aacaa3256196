import RiskTypology.Yaml.Cursor
import RiskTypology.Draft.Plain

/-!
# YAML tokens

Tokens, and scanning those that are read from their own characters alone: directives, anchors,
aliases and tags.
-/

namespace RiskTypology.Yaml

/-- How a scalar was written. -/
inductive Style where
  | plain
  | quoted
  | block
deriving DecidableEq, Repr

/-- A token. -/
inductive Token where
  | version
  | tagHandle (handle leading : String)
  | documentStart
  | documentEnd
  | blockSequence
  | blockMapping
  | blockEnd
  | flowSequence
  | flowSequenceEnd
  | flowMapping
  | flowMappingEnd
  | blockEntry
  | flowEntry
  | key
  | value
  | alias (name : String)
  | anchor (name : String)
  | tag (handle suffix : String)
  | scalar (style : Style) (text : String)
deriving DecidableEq, Repr

namespace Token

/-- Characters of a tag's address. -/
def isAddress (c : Char) : Bool :=
  (isWord c && c != '_') || "#;/?:@&=+$,_.!~*'()[]%".toList.contains c

/-- Characters of a tag that stands without angle brackets. -/
def isTagChar (c : Char) : Bool := isAddress c && !isFlow c && c != '!'

/-- How many bytes a character has whose first byte this is. -/
def byteCount? (first : Nat) : Option Nat :=
  if first < 0x80 then some 1
  else if 0xC0 ≤ first ∧ first < 0xE0 then some 2
  else if 0xE0 ≤ first ∧ first < 0xF0 then some 3
  else if 0xF0 ≤ first ∧ first < 0xF8 then some 4
  else none

/-- The bytes of percent escapes. -/
def percentBytes? : Nat → List Char → Option (List Nat)
  | 0, _ => some []
  | n + 1, '%' :: a :: b :: rest => do
    return (← Plain.digits? 16 [a, b]) :: (← percentBytes? n rest)
  | _ + 1, _ => none

/-- The character of a run of percent escapes, and the length of the run. -/
def percentChar (cs : List Char) : Except ScanFault (Char × Nat) := do
  let some [first] := percentBytes? 1 cs | throw .tag
  let some count := byteCount? first | throw .tag
  let some bytes := percentBytes? count cs | throw .tag
  if (bytes.drop 1).all fun b ↦ 0x80 ≤ b ∧ b < 0xC0 then
    let lead := if count = 1 then first else first % Nat.pow 2 (7 - count)
    let code := (bytes.drop 1).foldl (fun n b ↦ n * 64 + b % 64) lead
    if code.isValidChar then return (Char.ofNat code, 3 * count) else throw .tag
  else throw .tag

/-- Scan a run of an address, resolving percent escapes. -/
def address (p : Char → Bool) : Nat → Cursor → List Char → Except ScanFault (List Char × Cursor)
  | 0, c, text => .ok (text, c)
  | fuel + 1, c, text =>
    match c.rest with
    | [] => .ok (text, c)
    | x :: _ =>
      if !p x then .ok (text, c)
      else if x = '%' then
        match percentChar c.rest with
        | .ok (y, n) => address p fuel (c.skipMany n) (text ++ [y])
        | .error e => .error e
      else address p fuel c.skip (text ++ [x])

/-- Scan a handle: an exclamation mark, and a name with another one. -/
def handle (c : Cursor) : List Char × Cursor :=
  let (name, after) := c.skip.span isWord
  if nextIs (· == '!') after.rest then ('!' :: name ++ ['!'], after.skip)
  else ('!' :: name, after)

/-- Whether a handle is a whole one, with an exclamation mark at both ends. -/
def isNamed (handle : List Char) : Bool := 2 ≤ handle.length && handle.getLast? == some '!'

/-- Scan a tag in angle brackets, behind the opening one. -/
def verbatimTag (c : Cursor) : Except ScanFault (Token × Cursor) := do
  let (text, after) ← address isAddress (c.rest.length + 1) c []
  if nextIs (· == '>') after.rest then return (.tag "" (String.ofList text), after.skip)
  else throw .tag

/-- Scan a tag without brackets. -/
def shortTag (c : Cursor) : Except ScanFault (Token × Cursor) := do
  let (h, after) := handle c
  let head := if isNamed h then [] else h.drop 1
  let (text, final) ← address isTagChar (after.rest.length + 1) after head
  let suffix := String.ofList text
  if isNamed h then
    if text.isEmpty then throw .tag else return (.tag (String.ofList h) suffix, final)
  else if text.isEmpty then return (.tag "" "!", final)
  else return (.tag "!" suffix, final)

/-- Scan a tag. -/
def scanTag (flow : Bool) (c : Cursor) : Except ScanFault (Token × Cursor) := do
  let (t, after) ← match c.rest with
    | _ :: '<' :: _ => verbatimTag (c.skipMany 2)
    | _ => shortTag c
  if endsWord after.rest || (flow && nextIs isFlow after.rest) then return (t, after)
  else throw .tag

/-- Characters of the name of an anchor. -/
def isAnchorChar (v : Version) (c : Char) : Bool :=
  match v with
  | .v11 => isWord c
  | .v12 => !isBlank c && !isBreak c && !isFlow c && c.toNat != 0xFEFF

/-- Scan an anchor, or an alias of one. -/
def scanAnchor (v : Version) (isAlias : Bool) (c : Cursor) : Except ScanFault (Token × Cursor) :=
  let (name, after) := c.skip.span (isAnchorChar v)
  let ends := v == .v12 || endsWord after.rest ||
    nextIs (fun x ↦ "?:,]\x7d%@\x60".toList.contains x) after.rest
  if name.isEmpty || !ends then .error .anchor
  else .ok (if isAlias then .alias (String.ofList name) else .anchor (String.ofList name), after)

/-- Scan a number of a version. -/
def versionNumber (c : Cursor) : Except ScanFault (List Char × Cursor) :=
  let (digits, after) := c.span Char.isDigit
  if digits.isEmpty || 9 < digits.length then .error .directive else .ok (digits, after)

/-- Scan the value of a version directive. -/
def scanVersion (v : Version) (c : Cursor) : Except ScanFault (Token × Cursor) := do
  let (major, after) ← versionNumber (c.span isBlank).2
  if !nextIs (· == '.') after.rest then throw .directive
  let (minor, final) ← versionNumber after.skip
  if v == .v11 && !(major == ['1'] && (minor == ['1'] || minor == ['2'])) then throw .directive
  return (.version, final)

/-- Scan the value of a tag directive: a handle and what it stands for. -/
def scanTagHandle (c : Cursor) : Except ScanFault (Token × Cursor) := do
  let c := (c.span isBlank).2
  if !nextIs (· == '!') c.rest then throw .tag
  let (h, after) := handle c
  if !(isNamed h || h == ['!']) then throw .tag
  let start := (after.span isBlank).2
  if !nextIs (fun x ↦ x == '!' || isTagChar x) start.rest then throw .tag
  let head := if nextIs (· == '!') start.rest then ['!'] else []
  let (text, final) ← address isAddress (start.rest.length + 1) (start.skipMany head.length) head
  if endsWord final.rest then
    return (.tagHandle (String.ofList h) (String.ofList text), final)
  else throw .tag

/-- Scan a directive from its percent sign to the end of its line. The newer version passes over
directives it does not know. -/
def scanDirective (v : Version) (c : Cursor) : Except ScanFault (Token × Cursor) := do
  let (name, after) := c.skip.span isWord
  if name.isEmpty || !endsWord after.rest then throw .directive
  let (t, after) ←
    if name == "YAML".toList then scanVersion v after
    else if name == "TAG".toList then scanTagHandle after
    else if v == .v12 then .ok (.tagHandle "" "", after.skipLine)
    else throw .directive
  let (_, tail) ← after.lineTail v
  if endsLine tail.rest then return (t, tail.skipBreak) else throw .directive

end Token
end RiskTypology.Yaml
