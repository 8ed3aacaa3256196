import RiskTypology.Yaml.Scalar.Gap

/-!
# Scanning block scalars

A block scalar takes all lines that are indented as its first one is, or as its header says. The
literal style keeps line ends, the folded one turns a single line end between two lines that
begin without a blank into a space. The header also tells what becomes of the last line ends.
-/

namespace RiskTypology.Yaml.BlockScalar

/-- What becomes of the line ends behind the last line. -/
inductive Chomping where
  | strip
  | clip
  | keep
deriving DecidableEq, Repr

/-- What a header says. -/
structure Header where
  chomping : Chomping := .clip
  /-- How much deeper than their parent the lines are indented; 0 when it is not said. -/
  increment : Nat := 0

/-- Read the marks of a header, each at most once and in any order. -/
def header (h : Header) (chomped : Bool) : Nat → Cursor → Except ScanFault (Header × Cursor)
  | 0, c => .ok (h, c)
  | fuel + 1, c =>
    match c.rest with
    | [] => .ok (h, c)
    | x :: _ =>
      if !chomped && x == '+' then header { h with chomping := .keep } true fuel c.skip
      else if !chomped && x == '-' then header { h with chomping := .strip } true fuel c.skip
      else if h.increment == 0 && x == '0' then .error .indentation
      else if h.increment == 0 && x.isDigit then
        header { h with increment := x.toNat - 48 } chomped fuel c.skip
      else .ok (h, c)

/-- Pass over indentation and empty lines; also the number of the latter. -/
def blankLines (v : Version) (indent : Nat) :
    Nat → Cursor → Nat → Except ScanFault (Nat × Cursor)
  | 0, c, n => .ok (n, c)
  | fuel + 1, c, n =>
    let spaces := (c.rest.takeWhile (· == ' ')).length
    let after := c.skipMany (min spaces (indent - c.column))
    if v == .v11 && decide (after.column < indent) && nextIs (· == '\t') after.rest then
      .error .tab
    else if nextIs isBreak after.rest then blankLines v indent fuel after.skipBreak (n + 1)
    else .ok (n, after)

/-- Pass over empty lines in front of the first line; their number, and the deepest
indentation. -/
def firstLines (v : Version) : Nat → Cursor → Nat → Nat → Except ScanFault (Nat × Nat × Cursor)
  | 0, c, n, deepest => .ok (n, deepest, c)
  | fuel + 1, c, n, deepest =>
    let after := (c.span (· == ' ')).2
    let deepest := max deepest after.column
    if v == .v11 && nextIs (· == '\t') after.rest then .error .tab
    else if nextIs isBreak after.rest then firstLines v fuel after.skipBreak (n + 1) deepest
    else .ok (n, deepest, after)

/-- The lines so far. -/
structure Lines where
  text : List Char := []
  /-- Whether a line end is pending. -/
  pending : Bool := false
  /-- Empty lines behind it. -/
  breaks : Nat := 0
  /-- Whether the last line began with a blank. -/
  blank : Bool := false

/-- What joins the lines so far with a line that is to follow. -/
def Lines.joint (l : Lines) (literal blankNext : Bool) : List Char :=
  if !literal && l.pending && !l.blank && !blankNext then
    if l.breaks = 0 then [' '] else List.replicate l.breaks '\n'
  else (if l.pending then ['\n'] else []) ++ List.replicate l.breaks '\n'

/-- Scan line after line. -/
def lines (v : Version) (literal : Bool) (indent : Nat) :
    Nat → Cursor → Lines → Except ScanFault (Lines × Cursor)
  | 0, c, l => .ok (l, c)
  | fuel + 1, c, l => do
    if c.column != indent || c.rest.isEmpty || (indent == 0 && isEndMarker c.rest) then
      return (l, c)
    let blank := nextIs isBlank c.rest
    let (line, after) := c.span fun x ↦ !isBreak x
    let text := l.text ++ l.joint literal blank ++ line
    if after.rest.isEmpty then return ({ text, blank }, after)
    let next := after.skipBreak
    let (breaks, next) ← blankLines v indent (next.rest.length + 1) next 0
    lines v literal indent fuel next { text, pending := true, breaks, blank }

/-- The text when there is no line at all; `broken` tells whether the header's line ended. -/
def emptyText (chomping : Chomping) (broken : Bool) (breaks : Nat) : List Char :=
  match chomping with
  | .strip => []
  | .clip => if broken then ['\n'] else []
  | .keep => if breaks = 0 then if broken then ['\n'] else [] else List.replicate breaks '\n'

/-- Close the lines as the header tells. In the newer version a last line that the end of the
text cuts off counts as ended. -/
def Lines.close (l : Lines) (v : Version) (chomping : Chomping) (indent : Nat) (c : Cursor) :
    List Char :=
  let last := if l.pending then ['\n'] else []
  let cut := if v == .v12 && c.rest.isEmpty && decide (max indent 1 ≤ c.column) then ['\n'] else []
  match chomping with
  | .strip => l.text
  | .clip => l.text ++ last ++ cut
  | .keep => l.text ++ last ++ cut ++ List.replicate l.breaks '\n'

/-- Scan a block scalar behind its indicator; `parent` is the indentation around it. -/
def scan (v : Version) (literal : Bool) (parent : Int) (c : Cursor) :
    Except ScanFault (String × Cursor) := do
  let (h, after) ← header {} false (c.rest.length + 1) c
  let (_, after) ← after.lineTail v
  if !endsLine after.rest then throw .lineEnd
  let next := after.skipBreak
  if v == .v12 && nextIs (· == '\t') next.rest then throw .tab
  let fuel := next.rest.length + 1
  let (breaks, indent, start) ←
    if h.increment = 0 then do
      let (breaks, deepest, start) ← firstLines v fuel next 0 0
      let least := match v with
        | .v11 => max 1 (parent + 1)
        | .v12 => parent + 1
      pure (breaks, max deepest least.toNat, start)
    else do
      let indent := (max parent 0).toNat + h.increment
      let (breaks, start) ← blankLines v indent fuel next 0
      pure (breaks, indent, start)
  if v == .v12 && start.rest.isEmpty then
    return (String.ofList (emptyText h.chomping (c.line != start.line) breaks), start)
  if v == .v12 && decide (start.column < indent ∧ parent < start.column) then throw .indentation
  let (l, final) ← lines v literal indent fuel start { breaks }
  return (String.ofList (l.close v h.chomping indent final), final)

end RiskTypology.Yaml.BlockScalar
