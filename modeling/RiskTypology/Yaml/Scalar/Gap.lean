import RiskTypology.Yaml.Cursor

/-!
# Gaps inside scalars

Between two words of a scalar stand blanks, which are kept, or line breaks, of which the first
folds to a space unless more of them follow.
-/

namespace RiskTypology.Yaml

/-- What was met between two words. -/
structure Gap where
  /-- Blanks of the first line, last first. -/
  blanks : List Char := []
  /-- Whether a line ended. -/
  broken : Bool := false
  /-- Whether the first line end counts as a space. -/
  folds : Bool := false
  /-- Line ends behind the first one. -/
  breaks : Nat := 0

namespace Gap

/-- A gap behind an escaped line end, which counts for nothing. -/
def escaped : Gap := { broken := true }

/-- One more line end. -/
def lineBreak (g : Gap) : Gap :=
  if g.broken then { g with breaks := g.breaks + 1 } else { broken := true, folds := true }

/-- The text a gap stands for. -/
def text (g : Gap) : List Char :=
  if g.broken then
    if g.folds && g.breaks == 0 then [' '] else List.replicate g.breaks '\n'
  else g.blanks.reverse

/-- Scan a gap; `onTab` passes over a tab at the front of a line, or refuses it. -/
def scan (onTab : Cursor → Except ScanFault Cursor) :
    Nat → Cursor → Gap → Except ScanFault (Gap × Cursor)
  | 0, c, g => .ok (g, c)
  | fuel + 1, c, g =>
    match c.rest with
    | [] => .ok (g, c)
    | x :: _ =>
      if isBreak x then scan onTab fuel c.skipBreak g.lineBreak
      else if isBlank x then
        if g.broken then
          if x = '\t' then do scan onTab fuel (← onTab c) g
          else scan onTab fuel c.skip g
        else scan onTab fuel c.skip { g with blanks := x :: g.blanks }
      else .ok (g, c)

end Gap
end RiskTypology.Yaml
