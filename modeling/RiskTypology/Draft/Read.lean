import RiskTypology.Draft.Plain

/-!
# Reading drafts

Readers for the plain types, and the vocabulary for records. A record's fields are read in the
order in which the draft holds them, and of several faults the one met first is told: every
fault carries its place, and combining two readings keeps the earlier one. A missing field is
noticed behind everything that is there, in the order of declaration.
-/

namespace RiskTypology

/-- A reader of drafts. -/
abbrev Reader (α : Type) := Draft → Except Fault α

namespace Draft

/-- One step after another goes well if both do. -/
theorem bind_eq_ok {ε α β : Type} {x : Except ε α} {f : α → Except ε β} {b : β} :
    x >>= f = .ok b ↔ ∃ a, x = .ok a ∧ f a = .ok b := by
  cases x <;> simp [Bind.bind, Except.bind]

/-- The fault of what fails. -/
def fault? {ε α : Type} : Except ε α → Option ε
  | .error x => some x
  | .ok _ => none

/-- What has a fault is that fault. -/
theorem fault?_eq_some {ε α : Type} {r : Except ε α} {x : ε} :
    fault? r = some x ↔ r = .error x := by
  cases r <;> simp [fault?]

/-- What goes well has no fault. -/
theorem exists_ok_iff {ε α : Type} {r : Except ε α} : (∃ a, r = .ok a) ↔ fault? r = none := by
  cases r <;> simp [fault?]

/-- Fail where the text stops making sense. -/
def finish {α : Type} (ending : Ending) (a : α) : Except Fault α :=
  match ending with
  | .broken d _ => .error (.defect d)
  | _ => .ok a

mutual

/-- Read a draft whole, as a value of no particular type. -/
def toJson : Reader Json
  | .null => .ok .null
  | .bool b => .ok (.bool b)
  | .int i => .ok (.int i)
  | .float x => .ok (.float x)
  | .str s => .ok (.str s)
  | .arr items ending => do finish ending (.arr (← toItems items))
  | .seq items => do return .arr (← toItems items)
  | .obj members ending => do finish ending (.obj (← toMembers members []))
  | .plain s => Plain.value s
  | .flawed d _ => .error (.defect d)

private def toItems : List Draft → Except Fault (List Json)
  | [] => .ok []
  | d :: rest => do return (← toJson d) :: (← toItems rest)

private def toMembers : List (Option String × Draft) → Body → Except Fault Body
  | [], body => .ok body
  | (none, _) :: _, _ => .error (.defect .malformed)
  | (some n, d) :: rest, body => do toMembers rest (body.insert n (← toJson d))

end

mutual

/-- A value that is read whole comes with the members of its objects in order. -/
theorem toJson_ofJson : (j : Json) → toJson (ofJson j) = .ok j.canonical
  | .null | .bool _ | .int _ | .float _ | .str _ => rfl
  | .arr items => by
    rw [Json.canonical_arr, ofJson, toJson, toItems_ofItems items]
    rfl
  | .obj members => by
    rw [Json.canonical_obj, ofJson, toJson, toMembers_ofMembers members]
    rfl

private theorem toItems_ofItems : (items : List Json) →
    toItems (ofItems items) = .ok (items.map Json.canonical)
  | [] => rfl
  | j :: rest => by
    rw [ofItems, toItems, toJson_ofJson j, toItems_ofItems rest]
    rfl

private theorem toMembers_ofMembers : (members : List (String × Json)) → (body : Body) →
    toMembers (ofMembers members) body = .ok ((members.map fun m ↦ (m.1, m.2.canonical)).foldl
      (fun body m ↦ body.insert m.1 m.2) body)
  | [], _ => rfl
  | (n, v) :: rest, body => by
    rw [ofMembers, toMembers, toJson_ofJson v]
    exact toMembers_ofMembers rest (body.insert n v.canonical)

end

/-- Read a text. -/
def text : Reader String
  | .str s => .ok s
  | .plain s => .ok s
  | d => .error (d.unexpected "a string")

/-- Read a truth value. -/
def flag : Reader Bool
  | .bool b => .ok b
  | .plain s => match Plain.bool? s with
    | some b => .ok b
    | none => .error ((Draft.plain s).unexpected "a boolean")
  | d => .error (d.unexpected "a boolean")

/-- Read a float; integers count. -/
def number : Reader Float
  | .int i => .ok (Float.ofInt i)
  | .float x => .ok x
  | .plain s => match Plain.float? s with
    | some x => .ok x
    | none => .error ((Draft.plain s).unexpected "f64")
  | d => .error (d.unexpected "f64")

/-- Read a word of sixty-four bits. -/
def word : Reader UInt64
  | .int i =>
    if 0 ≤ i ∧ i < UInt64.size then .ok i.toNat.toUInt64 else .error (.wrongValue (.int i) "u64")
  | .plain s => match Plain.word? s with
    | some n => .ok n
    | none => .error ((Draft.plain s).unexpected "u64")
  | d => .error (d.unexpected "u64")

/-- Read something that may be null. -/
def nullable {α : Type} (read : Reader α) : Reader (Option α)
  | .null => .ok none
  | .plain s => if s.isEmpty || Plain.isNull s then .ok none else some <$> read (.plain s)
  | d => some <$> read d

/-- Read every draft of a list, in order. -/
def readAll {α : Type} (read : Reader α) : List Draft → Except Fault (List α)
  | [] => .ok []
  | d :: rest => do return (← read d) :: (← readAll read rest)

/-- Read a list; a bare scalar without text is an empty one. -/
def list {α : Type} (read : Reader α) : Reader (List α)
  | .arr items ending => do finish ending (← readAll read items)
  | .seq items => readAll read items
  | .plain s => if s.isEmpty then .ok [] else .error ((Draft.plain s).unexpected "a sequence")
  | d => .error (d.unexpected "a sequence")

end Draft

/-- A reading of a part of a record: what was read, or a fault with its place. -/
inductive Partial (α : Type) where
  | ok (a : α)
  | fault (place : Nat) (fault : Fault)

namespace Partial

/-- Combine two readings; of two faults the earlier one stays, and the first where both are
equally early. -/
def both {α β γ : Type} (f : α → β → γ) : Partial α → Partial β → Partial γ
  | .ok a, .ok b => .ok (f a b)
  | .ok _, .fault place x => .fault place x
  | .fault place x, .ok _ => .fault place x
  | .fault place x, .fault place2 y => if place ≤ place2 then .fault place x else .fault place2 y

/-- What is read can be mapped; a fault stays at its place. -/
instance : Functor Partial where
  map
    | f, .ok a => .ok (f a)
    | _, .fault place x => .fault place x

/-- Readings are applied to each other as they are combined. -/
instance : Seq Partial where
  seq f a := both (· ·) f (a ())

/-- Put a reading at a place. -/
def atPlace {α : Type} (place : Nat) : Except Fault α → Partial α
  | .ok a => .ok a
  | .error x => .fault place x

/-- Drop the place of a fault. -/
def toExcept {α : Type} : Partial α → Except Fault α
  | .ok a => .ok a
  | .fault _ x => .error x

section

variable {α β γ : Type}

/-- Two readings combine well if both go well. -/
@[simp] theorem both_eq_ok {f : α → β → γ} {p : Partial α} {q : Partial β} {c : γ} :
    both f p q = .ok c ↔ ∃ a b, p = .ok a ∧ q = .ok b ∧ f a b = c := by
  cases p with
  | ok a => cases q <;> simp [both]
  | fault place x =>
    cases q with
    | ok b => simp [both]
    | fault place2 y =>
      simp only [both]
      split <;> simp

/-- A reading goes well under a function if it does. -/
@[simp] theorem map_eq_ok {f : α → β} {p : Partial α} {b : β} :
    f <$> p = .ok b ↔ ∃ a, p = .ok a ∧ f a = b := by
  cases p with
  | ok a =>
    change Partial.ok (f a) = .ok b ↔ _
    simp
  | fault place x =>
    change Partial.fault place x = .ok b ↔ _
    simp

/-- A reading of a function applied to another goes well if both do. -/
@[simp] theorem seq_eq_ok {f : Partial (α → β)} {p : Partial α} {b : β} :
    f <*> p = .ok b ↔ ∃ g a, f = .ok g ∧ p = .ok a ∧ g a = b :=
  both_eq_ok

/-- A reading at a place goes well if it does. -/
@[simp] theorem atPlace_eq_ok {place : Nat} {r : Except Fault α} {a : α} :
    atPlace place r = .ok a ↔ r = .ok a := by
  cases r <;> simp [atPlace]

/-- A reading goes well without its place if it does. -/
@[simp] theorem toExcept_eq_ok {p : Partial α} {a : α} : p.toExcept = .ok a ↔ p = .ok a := by
  cases p <;> simp [toExcept]

end

end Partial

/-- The name of a record type and the names of its fields in their order. -/
structure Shape where
  name : String
  fields : List String

/-- The record as an error names it. -/
def Shape.wanted (s : Shape) : String := "struct " ++ s.name

/-- The record as an error names it when it is given as a list of its fields. -/
def Shape.wantedItems (s : Shape) : String :=
  s.wanted ++ " with " ++ toString s.fields.length ++
    if s.fields.length = 1 then " element" else " elements"

/-- The parts a record is read from: named members, or items in the order of the fields. -/
inductive Parts where
  | members (shape : Shape) (members : List (Option String × Draft)) (ending : Ending)
  | items (shape : Shape) (items : List Draft) (ending : Ending)

namespace Parts

/-- The first member of a name and its place. -/
def locate (name : String) : List (Option String × Draft) → Nat → Option (Nat × Draft)
  | [], _ => none
  | (n, d) :: rest, place => if n = some name then some (place, d) else locate name rest (place + 1)

/-- The draft of a field and its place. -/
def find? : Parts → String → Option (Nat × Draft)
  | .members _ ms _, name => locate name ms 0
  | .items shape xs _, name =>
    let place := shape.fields.idxOf name
    xs[place]?.map fun d ↦ (place, d)

/-- The fault of a field that is not there. -/
def absent {α : Type} : Parts → String → Partial α
  | .members _ ms _, name => .fault (ms.length + 1) (.missing name)
  | .items shape xs _, name =>
    .fault (xs.length + 1) (.wrongLength (shape.fields.idxOf name) shape.wantedItems)

/-- Read a field that must be there. -/
def required {α : Type} (p : Parts) (name : String) (read : Reader α) : Partial α :=
  match p.find? name with
  | some (place, d) => .atPlace place (read d)
  | none => p.absent name

/-- Read a field that has a value when it is not there. -/
def orElse {α : Type} (p : Parts) (name : String) (value : α) (read : Reader α) : Partial α :=
  match p.find? name with
  | some (place, d) => .atPlace place (read d)
  | none => .ok value

/-- Read a field that may be missing or null. -/
def optional {α : Type} (p : Parts) (name : String) (read : Reader α) : Partial (Option α) :=
  p.orElse name none (Draft.nullable read)

/-- How members end. -/
private def atEnd (ending : Ending) (place : Nat) : Partial Unit :=
  .atPlace place (Draft.finish ending ())

/-- Check the members no field takes: names, repeats, defects and the end. -/
def checkMembers (fields : List String) :
    List (Option String × Draft) → Ending → Nat → List String → Partial Unit
  | [], ending, place, _ => atEnd ending place
  | (none, _) :: _, _, place, _ => .fault place (.defect .malformed)
  | (some name, d) :: rest, ending, place, seen =>
    if name ∈ fields then
      if name ∈ seen then .fault place (.repeated name)
      else checkMembers fields rest ending (place + 1) (name :: seen)
    else
      match d.skip with
      | .error defect => .fault place (.defect defect)
      | .ok () => checkMembers fields rest ending (place + 1) seen

/-- Collect the members no field takes, each read whole; of repeats the last counts. -/
def collect (fields : List String) :
    List (Option String × Draft) → Ending → Nat → List String → Body → Partial Body
  | [], ending, place, _, body => (fun () ↦ body) <$> atEnd ending place
  | (none, _) :: _, _, place, _, _ => .fault place (.defect .malformed)
  | (some name, d) :: rest, ending, place, seen, body =>
    if name ∈ fields then
      if name ∈ seen then .fault place (.repeated name)
      else collect fields rest ending (place + 1) (name :: seen) body
    else
      match d.toJson with
      | .error x => .fault place x
      | .ok value => collect fields rest ending (place + 1) seen (body.insert name value)

/-- Check that nothing is left over when all fields are read. -/
def leftover : Parts → Partial Unit
  | .members shape ms ending => checkMembers shape.fields ms ending 0 []
  | .items shape xs ending =>
    if shape.fields.length < xs.length then
      .fault shape.fields.length (match ending with
        | .given => .wrongLength xs.length "fewer elements in array"
        | _ => .defect .malformed)
    else atEnd ending xs.length

/-- The members no field takes, as a body. -/
def rest : Parts → Partial Body
  | .members shape ms ending => collect shape.fields ms ending 0 [] []
  | .items _ _ _ => .ok []

end Parts

namespace Draft

/-- Read a record from an object, from a list of its fields in order, or, without any field, from
a bare scalar without text. Members that no field takes are passed over. -/
def record {α : Type} (shape : Shape) (fields : Parts → Partial α) : Reader α
  | .obj members ending =>
    let p := Parts.members shape members ending
    (Partial.both (fun a () ↦ a) (fields p) p.leftover).toExcept
  | .arr items ending =>
    let p := Parts.items shape items ending
    (Partial.both (fun a () ↦ a) (fields p) p.leftover).toExcept
  | .plain s =>
    if s.isEmpty then (fields (.members shape [] .closed)).toExcept
    else .error ((Draft.plain s).unexpected shape.wanted)
  | d => .error (d.unexpected shape.wanted)

/-- Read a record that keeps the members no field takes. -/
def openRecord {α : Type} (shape : Shape) (fields : Parts → Partial (Body → α)) : Reader α
  | .obj members ending =>
    let p := Parts.members shape members ending
    (fields p <*> p.rest).toExcept
  | d => .error (d.unexpected shape.wanted)

end Draft
end RiskTypology
