import RiskTypology.Draft.Read
import RiskTypology.Yaml.Node

/-!
# Reading YAML text as a value of a type

Nodes become drafts whose plain scalars take the kind that is wanted. Only one document may stand
in a text; a text without any reads like a bare scalar without text.
-/

namespace RiskTypology.Yaml

/-- Lists and mappings may be nested this deeply. -/
def depthLimit : Nat := 128

/-- A place that nobody can read. -/
private def unreadable : Draft := .flawed .malformed none

/-- The name of a member; only a scalar can be one. -/
def Node.name? : Node → Option String
  | .scalar _ _ s => some s
  | .empty => some ""
  | _ => none

/-- Whether a tag keeps a plain scalar from being read as anything but text. -/
def Tag.isText (t : Tag) : Bool := t == ⟨Tag.coreLeading, "str"⟩

namespace Node

mutual

/-- A node as a draft; `depth` counts the lists and mappings that may still be opened. -/
def toDraft : Nat → Node → Draft
  | _, .empty => .plain ""
  | _, .unfinished => unreadable
  | _, .scalar .plain none s => .plain s
  | _, .scalar .plain (some tag) s => if tag.isText then .str s else .plain s
  | _, .scalar _ _ s => .str s
  | depth, .sequence items =>
    if depth = 0 then unreadable else .seq (toItems (depth - 1) items)
  | depth, .mapping entries =>
    if depth = 0 then unreadable else .obj (toMembers (depth - 1) entries) .closed

/-- The nodes of a sequence as drafts. -/
def toItems (depth : Nat) : List Node → List Draft
  | [] => []
  | n :: rest => toDraft depth n :: toItems depth rest

/-- The entries of a mapping as members. -/
def toMembers (depth : Nat) : List (Node × Node) → List (Option String × Draft)
  | [] => []
  | (k, v) :: rest => (k.name?, toDraft depth v) :: toMembers depth rest

end

end Node

/-- Read a text as a value of a type. -/
def readText {α : Type} (read : Reader α) (text : String) : Except Fault α :=
  match Node.ofText .v11 text with
  | .error _ => .error (.defect .malformed)
  | .ok [] => read (.plain "")
  | .ok [n] => read (n.toDraft depthLimit)
  | .ok _ => .error (.defect .malformed)

end RiskTypology.Yaml
