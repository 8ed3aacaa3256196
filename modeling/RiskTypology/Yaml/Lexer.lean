import RiskTypology.Yaml.Scalar.Block
import RiskTypology.Yaml.Scalar.Plain
import RiskTypology.Yaml.Scalar.Quoted
import RiskTypology.Yaml.Token

/-!
# From text to tokens

Indentation becomes tokens that open and close block collections. Whether something is a key is
known only when its colon is met: the place of what may be a key is remembered, and the tokens
for key and mapping are put in front of it then.
-/

namespace RiskTypology.Yaml

/-- An indentation that ended an outer one. -/
structure Indent where
  outer : Int
  /-- Whether a block collection was opened with it. -/
  isBlock : Bool

/-- What may turn out to be a key. -/
structure Candidate where
  /-- Whether it can no longer be anything else. -/
  required : Bool
  /-- How many tokens stand before it. -/
  token : Nat
  index : Nat
  line : Nat
  column : Nat

/-- A scan under way. -/
structure Lexer where
  version : Version
  cursor : Cursor
  tokens : Array Token := #[]
  indent : Int := -1
  indents : List Indent := []
  /-- What may be a key, of each flow collection around and last of the block; innermost
  first. -/
  candidate : Option Candidate := none
  outer : List (Option Candidate) := []
  /-- For each flow collection around whether it is a sequence. -/
  flows : List Bool := []
  /-- Whether a key may begin here. -/
  keyAllowed : Bool := true
  /-- Where a colon that nothing sets apart belongs to a key. -/
  adjacent : Option Nat := none

namespace Lexer

/-- The start of a text; the newer version ends it at a zero character. -/
def ofText (version : Version) (text : List Char) : Lexer :=
  let shown := match version with
    | .v11 => text
    | .v12 => text.takeWhile fun c ↦ c.toNat != 0
  { version, cursor := { rest := shown } }

/-- Whether a flow collection is open. -/
def inFlow (l : Lexer) : Bool := !l.flows.isEmpty

/-- Add a token. -/
def push (l : Lexer) (t : Token) : Lexer := { l with tokens := l.tokens.push t }

/-- Add a token at a place. -/
def insert (l : Lexer) (place : Nat) (t : Token) : Lexer :=
  { l with tokens := l.tokens.insertIdxIfInBounds place t }

/-- Whether the newest indentation opened a block collection. -/
def inBlock (l : Lexer) : Bool := (l.indents.head?.map Indent.isBlock).getD false

/-- Close block collections that are indented more than a column. -/
def unroll (l : Lexer) (column : Int) : Lexer :=
  if l.inFlow then l else go l l.indents
where
  go (l : Lexer) : List Indent → Lexer
    | [] => l
    | i :: rest =>
      if l.indent ≤ column then l
      else
        let closed := { l with indent := i.outer, indents := rest }
        go (if i.isBlock then closed.push .blockEnd else closed) rest

/-- Drop indentations that opened no collection. -/
def unrollOpenEnded (l : Lexer) : Lexer := go l l.indents
where
  go (l : Lexer) : List Indent → Lexer
    | [] => l
    | i :: rest => if i.isBlock then l else go { l with indent := i.outer, indents := rest } rest

/-- Open a block collection at a column that is deeper than the indentation; its token goes to a
place, or to the end. -/
def roll (l : Lexer) (column : Nat) (place : Option Nat) (t : Token) : Lexer :=
  if l.inFlow then l
  else
    let l := match l.indents with
      | i :: rest =>
        if !i.isBlock && decide (l.indent ≤ (column : Int)) then
          { l with indent := i.outer, indents := rest }
        else l
      | [] => l
    if l.indent < (column : Int) then
      let l := { l with indent := column, indents := ⟨l.indent, true⟩ :: l.indents }
      l.insert (place.getD l.tokens.size) t
    else l

/-- Ask that what follows is indented by one column more; the older version does not. -/
def rollOne (l : Lexer) : Lexer :=
  if l.version == .v12 && !l.inFlow && l.inBlock then
    { l with indent := l.indent + 1, indents := ⟨l.indent, false⟩ :: l.indents }
  else l

/-- Remember that what comes next may be a key. -/
def saveCandidate (l : Lexer) : Lexer :=
  if l.keyAllowed then
    let c := l.cursor
    let required := !l.inFlow && l.indent == (c.column : Int) && l.inBlock
    { l with candidate := some ⟨required, l.tokens.size, c.index, c.line, c.column⟩ }
  else l

/-- Forget what might have been a key. -/
def dropCandidate (l : Lexer) : Except ScanFault Lexer :=
  match l.candidate with
  | some k => if k.required then .error .colonMissing else .ok { l with candidate := none }
  | none => .ok l

/-- Whether it is too late for a key: it must stand on one line and not be too long. -/
def isStale (l : Lexer) (k : Candidate) : Bool :=
  (l.version == .v11 || !l.inFlow) &&
    (k.line < l.cursor.line || k.index + 1024 < l.cursor.index)

/-- What remains of a possible key at this position. -/
def refresh (l : Lexer) : Option Candidate → Except ScanFault (Option Candidate)
  | some k =>
    if l.isStale k then if k.required then .error .colonMissing else .ok none else .ok (some k)
  | none => .ok none

/-- Forget the keys for which it is too late. -/
def dropStale (l : Lexer) : Except ScanFault Lexer := do
  return { l with candidate := ← l.refresh l.candidate, outer := ← l.outer.mapM l.refresh }

/-- Go to another position. -/
def goTo (l : Lexer) (c : Cursor) : Lexer := { l with cursor := c }

/-- Go to the end of the line's blanks and comment. -/
def skipTail (l : Lexer) : Except ScanFault Lexer :=
  match l.version with
  | .v11 => .ok l
  | .v12 => do return l.goTo (← l.cursor.lineTail l.version).2

/-- Pass over a tab between tokens. -/
def skipTab (l : Lexer) : Except ScanFault (Option Lexer) :=
  match l.version with
  | .v11 => .ok (if l.inFlow || !l.keyAllowed then some (l.goTo l.cursor.skip) else none)
  | .v12 =>
    if !l.indents.isEmpty && l.cursor.fresh && decide ((l.cursor.column : Int) < l.indent) then do
      let (_, after) ← l.cursor.lineTail l.version
      if endsLine after.rest then return some (l.goTo after) else throw .tab
    else .ok (some (l.goTo l.cursor.skip))

/-- Pass over blanks, comments and line ends. -/
def skipToToken : Nat → Lexer → Except ScanFault Lexer
  | 0, l => .ok l
  | fuel + 1, l =>
    match l.cursor.rest with
    | [] => .ok l
    | x :: _ =>
      if x = ' ' then skipToToken fuel (l.goTo l.cursor.skip)
      else if x = '\t' then do
        match ← l.skipTab with
        | some next => skipToToken fuel next
        | none => return l
      else if isBreak x then
        skipToToken fuel
          { l with cursor := l.cursor.skipBreak, keyAllowed := l.keyAllowed || !l.inFlow }
      else if x = '#' then skipToToken fuel (l.goTo l.cursor.skipLine)
      else .ok l

/-- Scan a directive. -/
def directive (l : Lexer) : Except ScanFault Lexer := do
  let l ← (l.unroll (-1)).dropCandidate
  let (t, after) ← Token.scanDirective l.version l.cursor
  return { l with cursor := after, keyAllowed := false }.push t

/-- Scan a marker of a document's start or end. -/
def marker (l : Lexer) (t : Token) : Except ScanFault Lexer := do
  let l ← (l.unroll (-1)).dropCandidate
  let l := { l with cursor := l.cursor.skipMany 3, keyAllowed := false }.push t
  if t == .documentEnd && l.version == .v12 then
    let l ← l.skipTail
    if endsLine l.cursor.rest then return l else throw .lineEnd
  else return l

/-- Scan the opening bracket of a flow collection. -/
def openFlow (l : Lexer) (isSequence : Bool) : Except ScanFault Lexer := do
  let l := l.saveCandidate.rollOne
  let l := { l with
    outer := l.candidate :: l.outer
    candidate := none
    flows := isSequence :: l.flows
    keyAllowed := true
    cursor := l.cursor.skip }
  let l ← l.skipTail
  return l.push (if isSequence then .flowSequence else .flowMapping)

/-- Scan the closing bracket of a flow collection. Behind one that is itself inside a flow
collection a colon may follow at once. -/
def closeFlow (l : Lexer) (t : Token) : Except ScanFault Lexer := do
  if !l.inFlow && l.version == .v12 then throw .bracket
  let l ← l.dropCandidate
  let l := { l with
    candidate := l.outer.head?.join
    outer := l.outer.drop 1
    flows := l.flows.drop 1
    keyAllowed := false
    cursor := l.cursor.skip }
  let l ← l.skipTail
  let l := if l.inFlow then { l with adjacent := some l.cursor.index } else l
  return l.push t

/-- Scan a comma between entries of a flow collection. -/
def flowEntry (l : Lexer) : Except ScanFault Lexer := do
  let l ← l.dropCandidate
  let l ← { l with keyAllowed := true, cursor := l.cursor.skip }.skipTail
  return l.push .flowEntry

/-- Scan a dash before an entry of a block sequence. -/
def blockEntry (l : Lexer) : Except ScanFault Lexer := do
  if l.inFlow || !l.keyAllowed then throw .keyPosition
  let l := (l.goTo l.cursor.skip).roll l.cursor.column none .blockSequence
  let l ← match l.version with
    | .v11 => pure l
    | .v12 => do
      let (blanks, after) ← l.cursor.lineTail l.version
      if blanks.contains '\t' && nextIs (· == '-') after.rest && endsWord (after.rest.drop 1) then
        throw .tab
      let l := l.goTo after
      pure (if nextIs (fun x ↦ isBreak x || isFlow x) after.rest then l.rollOne else l)
  let l ← l.dropCandidate
  return { l with keyAllowed := true }.push .blockEntry

/-- In the newer version something that is no tab separates a question mark from its key. -/
def separateKey : Nat → Lexer → Bool → Except ScanFault Lexer
  | 0, l, _ => .ok l
  | fuel + 1, l, separated =>
    match l.cursor.rest with
    | [] => if separated then .ok l else .error .lineEnd
    | x :: _ =>
      if x = ' ' then separateKey fuel (l.goTo l.cursor.skip) true
      else if isBreak x then
        separateKey fuel
          { l with cursor := l.cursor.skipBreak, keyAllowed := l.keyAllowed || !l.inFlow } true
      else if x = '#' then separateKey fuel (l.goTo l.cursor.skipLine) separated
      else if x = '\t' then .error .tab
      else if separated then .ok l
      else .error .lineEnd

/-- Scan a question mark before a key. -/
def explicitKey (l : Lexer) : Except ScanFault Lexer := do
  if !l.inFlow && !l.keyAllowed then throw .keyPosition
  let l ← (l.roll l.cursor.column none .blockMapping).dropCandidate
  let l := { l with keyAllowed := !l.inFlow, cursor := l.cursor.skip }
  let l ← match l.version with
    | .v11 => pure l
    | .v12 => separateKey (l.cursor.rest.length + 1) l false
  return l.push .key

/-- In the newer version a tab alone does not separate a colon from a block entry or a word. -/
def checkColon (l : Lexer) : Except ScanFault Lexer :=
  if l.version == .v12 && nextIs (· == '\t') l.cursor.rest then do
    let (blanks, after) ← l.cursor.lineTail l.version
    if !blanks.contains ' ' && nextIs (fun x ↦ x == '-' || isWord x) after.rest then throw .tab
    return l.goTo after
  else .ok l

/-- Whether a key in a flow sequence stands on another line than its colon. -/
def keyIsTorn (l : Lexer) (k : Candidate) : Bool :=
  l.flows.head?.getD false && k.line < l.cursor.line

/-- Scan a colon before a value. -/
def value (l : Lexer) : Except ScanFault Lexer := do
  let column := l.cursor.column
  match l.candidate with
  | some k =>
    if l.keyIsTorn k then throw .keyPosition
    let l ← (l.goTo l.cursor.skip).checkColon
    let l := ((l.insert k.token .key).roll k.column (some k.token) .blockMapping).rollOne
    return { l with candidate := none, keyAllowed := false }.push .value
  | none =>
    let l ← (l.goTo l.cursor.skip).checkColon
    if !l.inFlow && !l.keyAllowed then throw .keyPosition
    let l := (l.roll column none .blockMapping).rollOne
    return { l with keyAllowed := !l.inFlow }.push .value

/-- Scan an anchor, an alias or a tag: something that may be a key, and after which none may
begin. -/
def property (l : Lexer) (scan : Cursor → Except ScanFault (Token × Cursor)) :
    Except ScanFault Lexer := do
  let l := l.saveCandidate
  let (t, after) ← scan l.cursor
  return { l with cursor := after, keyAllowed := false }.push t

/-- Scan a block scalar. -/
def blockScalar (l : Lexer) (literal : Bool) : Except ScanFault Lexer := do
  let l := l.saveCandidate.unrollOpenEnded
  let (text, after) ← BlockScalar.scan l.version literal l.indent l.cursor.skip
  return { l with cursor := after, keyAllowed := true }.push (.scalar .block text)

/-- Scan a quoted scalar. In the newer version a colon may follow it at once. -/
def quotedScalar (l : Lexer) (single : Bool) : Except ScanFault Lexer := do
  let l := l.saveCandidate
  let (text, after) ← QuotedScalar.scan l.version l.inFlow single l.indent l.cursor
  let l := { l with cursor := after, keyAllowed := false }
  let l ← match l.version with
    | .v11 => pure l
    | .v12 => do
      let l ← skipToToken (l.cursor.rest.length + 1) l
      pure { l with adjacent := some l.cursor.index }
  return l.push (.scalar .quoted text)

/-- Scan a plain scalar; where it ended with its line a key may begin. -/
def plainScalar (l : Lexer) : Except ScanFault Lexer := do
  let l := l.saveCandidate.unrollOpenEnded
  let least := l.indent + 1
  if l.version == .v12 && l.inFlow && decide ((l.cursor.column : Int) < least) then
    throw .indentation
  let (text, after) ← PlainScalar.scan l.version l.inFlow least l.cursor
  return { l with cursor := after, keyAllowed := after.fresh }.push (.scalar .plain text)

/-- Whether a colon here begins a value. -/
def isValueColon (l : Lexer) (next : List Char) : Bool :=
  endsWord next || (l.inFlow && (l.version == .v11 || nextIs isFlow next ||
    l.adjacent == some l.cursor.index))

/-- Whether a character begins no token. -/
def isForbidden (l : Lexer) (x : Char) : Bool :=
  x == '%' || x == '@' || x == '\x60' ||
    (l.version == .v11 && (isBlank x || x == '|' || x == '>'))

/-- Scan the token that begins with a character. -/
def token (l : Lexer) (x : Char) (next : List Char) : Except ScanFault Lexer :=
  if x == '[' then l.openFlow true
  else if x == '\x7b' then l.openFlow false
  else if x == ']' then l.closeFlow .flowSequenceEnd
  else if x == '\x7d' then l.closeFlow .flowMappingEnd
  else if x == ',' then l.flowEntry
  else if x == '-' && endsWord next then l.blockEntry
  else if x == '?' && endsWord next then l.explicitKey
  else if x == ':' && l.isValueColon next then l.value
  else if x == '*' then l.property (Token.scanAnchor l.version true)
  else if x == '&' then l.property (Token.scanAnchor l.version false)
  else if x == '!' then l.property (Token.scanTag l.inFlow)
  else if x == '|' && !l.inFlow then l.blockScalar true
  else if x == '>' && !l.inFlow then l.blockScalar false
  else if x == '\x27' then l.quotedScalar true
  else if x == '\x22' then l.quotedScalar false
  else if l.isForbidden x then .error .character
  else l.plainScalar

/-- Close everything at the end of the text. -/
def finish (l : Lexer) : Except ScanFault (Array Token) := do
  if l.outer.any fun k ↦ (k.map Candidate.required).getD false then throw .colonMissing
  let l ← l.dropCandidate
  return (l.unroll (-1)).tokens

/-- Scan token after token. -/
def run : Nat → Lexer → Except ScanFault (Array Token)
  | 0, l => l.finish
  | fuel + 1, l => do
    let l ← skipToToken (l.cursor.rest.length + 1) l
    let l ← l.dropStale
    match l.cursor.rest with
    | [] => l.finish
    | x :: next =>
      let l := l.unroll l.cursor.column
      if l.cursor.column == 0 && x == '%' then run fuel (← l.directive)
      else if l.cursor.column == 0 && isStartMarker l.cursor.rest then
        run fuel (← l.marker .documentStart)
      else if l.cursor.column == 0 && isEndMarker l.cursor.rest then
        run fuel (← l.marker .documentEnd)
      else if l.version == .v12 && decide ((l.cursor.column : Int) < l.indent) then
        throw .indentation
      else run fuel (← l.token x next)

end Lexer

/-- The tokens of a text. -/
def Token.ofText (version : Version) (text : String) : Except ScanFault (List Token) := do
  let cs := text.toList
  if cs.any fun c ↦ !version.admits c then throw .character
  return (← Lexer.run (cs.length + 1) (Lexer.ofText version cs)).toList

end RiskTypology.Yaml
