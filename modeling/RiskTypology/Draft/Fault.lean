import RiskTypology.Draft.Basic
import RiskTypology.Decimal.Layout
import RiskTypology.Text.Quoted

/-!
# Faults

Why a draft does not fit the type that is wanted, and how that is told.
-/

namespace RiskTypology

/-- What stood where something else was wanted. -/
inductive Found where
  | null
  | bool (b : Bool)
  | int (i : Int)
  | float (x : Float)
  | str (s : String)
  | list
  | object

/-- Why a draft cannot be read. -/
inductive Fault where
  /-- The text is defective at the place that was reached. -/
  | defect (d : Defect)
  | wrongKind (found : Found) (wanted : String)
  | wrongValue (found : Found) (wanted : String)
  | wrongLength (length : Nat) (wanted : String)
  | missing (field : String)
  | repeated (field : String)
  /-- The value fits none of a type's alternatives. -/
  | noAlternative (type : String)
  /-- A rule of the type refuses the value. -/
  | refused (reason : String)

/-- The finding in words. -/
def Found.describe : Found → String
  | .null => "null"
  | .bool b => "boolean `" ++ (if b then "true" else "false") ++ "`"
  | .int i => "integer `" ++ toString i ++ "`"
  | .float x => "floating point `" ++ Decimal.Layout.wire.text x ++ "`"
  | .str s => "string " ++ Text.quoted s
  | .list => "sequence"
  | .object => "map"

/-- The fault in words. -/
def Fault.message : Fault → String
  | .defect .malformed => "malformed text"
  | .defect .truncated => "text ended too early"
  | .wrongKind found wanted => "invalid type: " ++ found.describe ++ ", expected " ++ wanted
  | .wrongValue found wanted => "invalid value: " ++ found.describe ++ ", expected " ++ wanted
  | .wrongLength length wanted => "invalid length " ++ toString length ++ ", expected " ++ wanted
  | .missing field => "missing field `" ++ field ++ "`"
  | .repeated field => "duplicate field `" ++ field ++ "`"
  | .noAlternative type => "data did not match any variant of untagged enum " ++ type
  | .refused reason => reason

/-- The text's own defect, where the fault is one. -/
def Fault.defect? : Fault → Option Defect
  | .defect d => some d
  | _ => none

/-- A draft that is not of the wanted kind. -/
def Draft.unexpected (wanted : String) : Draft → Fault
  | .null => .wrongKind .null wanted
  | .bool b => .wrongKind (.bool b) wanted
  | .int i => .wrongKind (.int i) wanted
  | .float x => .wrongKind (.float x) wanted
  | .str s => .wrongKind (.str s) wanted
  | .plain s => .wrongKind (.str s) wanted
  | .arr _ _ => .wrongKind .list wanted
  | .seq _ => .wrongKind .list wanted
  | .obj _ _ => .wrongKind .object wanted
  | .flawed d _ => .defect d

end RiskTypology
