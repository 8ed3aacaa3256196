import Std.Data.HashMap
import RiskTypology.Model.Definition
import RiskTypology.Json.Reader
import RiskTypology.Yaml.Draft

/-!
# Definitions by typology

The definitions a service works with. Of several for one typology the last counts. They come from
a file of JSON or YAML text, whichever its name tells.
-/

namespace RiskTypology

/-- Definitions in the order in which they were given. -/
structure Repository where
  definitions : List Definition

namespace Repository

/-- The definitions under the ids and versions of their typologies. They are put there one after the
other, and each takes the place of an earlier one for its typology. -/
def table (r : Repository) : Std.HashMap (String × String) Definition :=
  .ofList (r.definitions.map fun d ↦ (d.key, d))

/-- The definition of a typology, by id and version. -/
def find? (r : Repository) (id cfg : String) : Option Definition := r.table[(id, cfg)]?

/-- How many typologies have a definition. -/
def size (r : Repository) : Nat := r.table.size

/-- Whether no typology has a definition. -/
def isEmpty (r : Repository) : Bool := r.table.isEmpty

end Repository

/-- Why no definitions come from a file. -/
inductive RepositoryFault where
  | unreadable (path reason : String)
  | json (fault : Fault)
  | yaml (path : String) (fault : Fault)

/-- The fault in words. -/
def RepositoryFault.message : RepositoryFault → String
  | .unreadable path reason =>
    "configuration error: failed to read " ++ Text.quoted path ++ ": " ++ reason
  | .json fault => "serialization error: " ++ fault.message
  | .yaml path fault => "configuration error: invalid " ++ Text.quoted path ++ ": " ++ fault.message

namespace Repository

/-- Whether the last part of a path has a name before the ending `.json`. -/
def isJsonPath (path : String) : Bool :=
  match path.toList.reverse.takeWhile (· != '/') with
  | 'n' :: 'o' :: 's' :: 'j' :: '.' :: _ :: _ => true
  | _ => false

/-- Definitions from the text of a file. -/
def ofText (path text : String) : Except RepositoryFault Repository :=
  if isJsonPath path then
    match Json.readText (Draft.list Definition.read) text with
    | .ok ds => .ok ⟨ds⟩
    | .error fault => .error (.json fault)
  else
    match Yaml.readText (Draft.list Definition.read) text with
    | .ok ds => .ok ⟨ds⟩
    | .error fault => .error (.yaml path fault)

/-- Load definitions from a file. -/
def load {m : Type → Type} [Monad m] (readFile : String → m (Except String String))
    (path : String) : m (Except RepositoryFault Repository) := do
  match ← readFile path with
  | .ok text => pure (ofText path text)
  | .error reason => pure (.error (.unreadable path reason))

end Repository
end RiskTypology
