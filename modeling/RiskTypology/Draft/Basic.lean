import RiskTypology.Json.Basic

/-!
# Drafts

A draft is a document as it was written, before anyone has asked what it should mean. It keeps
what a reader may meet on the way: members in their order with repeats, places where the text
stops making sense, and scalars whose kind depends on what is wanted of them. What a reader passes
over it never checks more closely than it has to.
-/

namespace RiskTypology

/-- What can be wrong with a text as such. -/
inductive Defect where
  /-- The text breaks the rules of its format. -/
  | malformed
  /-- The text ends too early. -/
  | truncated
deriving DecidableEq, Repr

/-- How a list or an object ends. -/
inductive Ending where
  /-- It is a value and was never text. -/
  | given
  /-- Its closing bracket was read. -/
  | closed
  /-- The text is defective before its closing bracket; `skip` is what one meets who passes over. -/
  | broken (read skip : Defect)
deriving DecidableEq, Repr

/-- A document as it was written. -/
inductive Draft where
  | null
  | bool (b : Bool)
  | int (i : Int)
  | float (x : Float)
  | str (s : String)
  /-- A list; where a record is wanted, its fields in their order. -/
  | arr (items : List Draft) (ending : Ending)
  /-- An object; a name that is no text is missing. -/
  | obj (members : List (Option String × Draft)) (ending : Ending)
  /-- A list of a notation whose records always name their fields. -/
  | seq (items : List Draft)
  /-- A bare scalar, of whatever kind is wanted. -/
  | plain (s : String)
  /-- A place that cannot be read; passing over it may still work. -/
  | flawed (read : Defect) (skip : Option Defect)

namespace Draft

mutual

/-- A value as a draft. -/
def ofJson : Json → Draft
  | .null => .null
  | .bool b => .bool b
  | .int i => .int i
  | .float x => .float x
  | .str s => .str s
  | .arr items => .arr (ofItems items) .given
  | .obj members => .obj (ofMembers members) .given

/-- The items of a list as drafts. -/
def ofItems : List Json → List Draft
  | [] => []
  | j :: rest => ofJson j :: ofItems rest

/-- The members of an object as drafts. -/
def ofMembers : List (String × Json) → List (Option String × Draft)
  | [] => []
  | (n, v) :: rest => (some n, ofJson v) :: ofMembers rest

end

/-- Item drafts are the drafts of the items. -/
theorem ofItems_eq_map (items : List Json) : ofItems items = items.map ofJson := by
  induction items with
  | nil => rfl
  | cons j rest ih => simp [ofItems, ih]

/-- Pass over an ending. -/
def skipEnding : Ending → Except Defect Unit
  | .broken _ d => .error d
  | _ => .ok ()

mutual

/-- Pass over a draft: only what no reader could get past counts. -/
def skip : Draft → Except Defect Unit
  | .arr items ending => do skipItems items; skipEnding ending
  | .obj members ending => do skipMembers members; skipEnding ending
  | .seq items => skipItems items
  | .flawed _ (some d) => .error d
  | _ => .ok ()

private def skipItems : List Draft → Except Defect Unit
  | [] => .ok ()
  | d :: rest => do skip d; skipItems rest

private def skipMembers : List (Option String × Draft) → Except Defect Unit
  | [] => .ok ()
  | (_, d) :: rest => do skip d; skipMembers rest

end

end Draft
end RiskTypology
