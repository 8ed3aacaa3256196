/-!
# JSON values

Objects keep their members as a list. Integers and floats are different kinds of number, so that a
value that is carried through leaves as it came.
-/

namespace RiskTypology

/-- A JSON value. -/
inductive Json where
  | null
  | bool (b : Bool)
  | int (i : Int)
  | float (x : Float)
  | str (s : String)
  | arr (items : List Json)
  | obj (members : List (String × Json))

namespace Json

/-- A float, or null where JSON has no number for it. -/
def ofFloat (x : Float) : Json := if x.isFinite then .float x else .null

/-- The empty object. -/
def empty : Json := .obj []

/-- A member that is left out when there is no value. -/
def member? (name : String) (value : Option Json) : List (String × Json) :=
  match value with
  | some j => [(name, j)]
  | none => []

/-- The first member of a name, of an object. -/
def get? : Json → String → Option Json
  | .obj members, name => members.lookup name
  | _, _ => none

end Json

/-- Members of an object in ascending order of their names, without repeats. -/
abbrev Body := List (String × Json)

namespace Body

/-- Set a member at its place in the order; an earlier one of that name is replaced. -/
def insert (name : String) (value : Json) : Body → Body
  | [] => [(name, value)]
  | (n, v) :: rest =>
    if name = n then (name, value) :: rest
    else if name < n then (name, value) :: (n, v) :: rest
    else (n, v) :: insert name value rest

/-- Collect members; of several with one name the last counts. -/
def ofList (members : List (String × Json)) : Body :=
  members.foldl (fun body m ↦ body.insert m.1 m.2) []

/-- The member of a name. -/
def get? (body : Body) (name : String) : Option Json := body.lookup name

/-- Inserting sets the member of that name. -/
@[simp] theorem get?_insert_self (body : Body) (name : String) (value : Json) :
    (body.insert name value).get? name = some value := by
  induction body with
  | nil => simp [insert, get?]
  | cons m rest ih =>
    obtain ⟨n, v⟩ := m
    unfold insert
    split
    · simp [get?]
    · next h =>
      have hn : (name == n) = false := beq_eq_false_iff_ne.mpr h
      split
      · simp [get?]
      · simpa [get?, List.lookup_cons, hn] using ih

/-- Inserting leaves the members of other names alone. -/
theorem get?_insert_of_ne (body : Body) {name other : String} (value : Json) (h : other ≠ name) :
    (body.insert name value).get? other = body.get? other := by
  have ho : (other == name) = false := beq_eq_false_iff_ne.mpr h
  induction body with
  | nil => simp [insert, get?, List.lookup_cons, ho]
  | cons m rest ih =>
    obtain ⟨n, v⟩ := m
    unfold insert
    split
    · next hn => subst hn; simp [get?, List.lookup_cons, ho]
    · split
      · simp [get?, List.lookup_cons, ho]
      · simp only [get?] at ih
        simp [get?, List.lookup_cons, ih]

end Body

mutual

/-- Order the members of every object and drop repeats; the last of them counts. -/
def Json.canonical : Json → Json
  | .arr items => .arr (canonicalItems items)
  | .obj members => .obj (canonicalMembers members [])
  | j => j

private def canonicalItems : List Json → List Json
  | [] => []
  | j :: rest => j.canonical :: canonicalItems rest

private def canonicalMembers : List (String × Json) → Body → Body
  | [], body => body
  | (n, v) :: rest, body => canonicalMembers rest (body.insert n v.canonical)

end

private theorem canonicalItems_eq_map (items : List Json) :
    canonicalItems items = items.map Json.canonical := by
  induction items with
  | nil => rfl
  | cons j rest ih => rw [canonicalItems, ih, List.map_cons]

private theorem canonicalMembers_eq_foldl (members : List (String × Json)) (body : Body) :
    canonicalMembers members body =
      (members.map fun m ↦ (m.1, m.2.canonical)).foldl (fun body m ↦ body.insert m.1 m.2) body := by
  induction members generalizing body with
  | nil => rfl
  | cons m rest ih => rw [canonicalMembers, ih, List.map_cons, List.foldl_cons]

namespace Json

/-- A list keeps its items and their order. -/
theorem canonical_arr (items : List Json) :
    (arr items).canonical = .arr (items.map canonical) := by
  rw [canonical, canonicalItems_eq_map]

/-- An object has its members collected. -/
theorem canonical_obj (members : List (String × Json)) :
    (obj members).canonical = .obj (Body.ofList (members.map fun m ↦ (m.1, m.2.canonical))) := by
  rw [canonical, canonicalMembers_eq_foldl, Body.ofList]

end Json

end RiskTypology
