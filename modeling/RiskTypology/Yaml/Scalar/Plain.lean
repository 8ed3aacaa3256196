import RiskTypology.Yaml.Scalar.Gap

/-!
# Scanning plain scalars

A plain scalar ends where a comment, a colon that makes it a key, an indicator of the flow
collection around it, a document marker or a line that is not indented enough begins.
-/

namespace RiskTypology.Yaml.PlainScalar

/-- The longest run of plain characters at the front of a text. -/
def run (flow : Bool) : List Char → List Char
  | [] => []
  | c :: rest =>
    if isBlank c || isBreak c then []
    else if flow && isFlow c then []
    else if c == ':' && (endsWord rest || (flow && nextIs isFlow rest)) then []
    else c :: run flow rest

/-- What becomes of a tab at the front of a line inside the scalar. -/
def onTab (v : Version) (indent : Int) (c : Cursor) : Except ScanFault Cursor :=
  if indent ≤ c.column then .ok c.skip
  else match v with
    | .v11 => .error .tab
    | .v12 => do
      let (_, after) ← c.lineTail v
      if endsLine after.rest then .ok after else .error .tab

/-- In the older version a colon before a flow indicator is refused; in the newer a dash. -/
def checkFlow (v : Version) (cs : List Char) : Except ScanFault Unit :=
  match v, cs with
  | .v11, ':' :: rest => if nextIs isFlow rest then .error .character else .ok ()
  | .v12, '-' :: rest => if nextIs isFlow rest then .error .character else .ok ()
  | _, _ => .ok ()

/-- Scan run after run; `text` holds the characters so far. -/
def scanFrom (v : Version) (flow : Bool) (indent : Int) :
    Nat → Cursor → Gap → List Char → Except ScanFault (List Char × Cursor)
  | 0, c, _, text => .ok (text, c)
  | fuel + 1, c, gap, text => do
    if (c.column == 0 && isMarker c.rest) || nextIs (· == '#') c.rest then return (text, c)
    if flow then checkFlow v c.rest
    match run flow c.rest with
    | [] => return (text, c)
    | word =>
      let text := text ++ gap.text ++ word
      let after := c.skipMany word.length
      if flow then if v == .v11 then checkFlow v after.rest
      if after.rest.isEmpty || !endsWord after.rest then return (text, after)
      let (gap, after) ← Gap.scan (onTab v indent) (after.rest.length + 1) after {}
      if !flow && decide ((after.column : Int) < indent) then return (text, after)
      scanFrom v flow indent fuel after gap text

/-- Scan a plain scalar whose lines are indented by at least `indent`. -/
def scan (v : Version) (flow : Bool) (indent : Int) (c : Cursor) :
    Except ScanFault (String × Cursor) := do
  let (text, after) ← scanFrom v flow indent (c.rest.length + 1) c {} []
  if text.isEmpty then .error .character else .ok (String.ofList text, after)

end RiskTypology.Yaml.PlainScalar
