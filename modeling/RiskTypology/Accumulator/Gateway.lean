import RiskTypology.Accumulator.Store
import RiskTypology.Model.RuleResult

/-!
# Rule results in the store

Rule results go into a store as records and come out as rule results. A store may be of any kind: it
is known by what it answers and how that changes its state. The store of interim records is one,
and what it does when it is out of order is a parameter.
-/

namespace RiskTypology

/-- How a store answers an append. -/
inductive AppendMode where
  | works
  /-- It answers that there are no records, and keeps nothing. -/
  | answersNothing
  /-- It fails and keeps nothing. -/
  | fails (error : String)
deriving DecidableEq, Repr

/-- How a store is working. -/
structure StoreMode where
  append : AppendMode := .works
  /-- The error of every deletion; while it lasts nothing is deleted. -/
  deleteError : Option String := none
deriving DecidableEq, Repr

/-- Why something went wrong. -/
inductive Failure where
  | accumulator (error : String)
  | serialization (fault : Fault)
  | dispatch (error : String)
  | config (error : String)

/-- The failure in words. -/
def Failure.message : Failure → String
  | .accumulator e => "accumulator error: " ++ e
  | .serialization f => "serialization error: " ++ f.message
  | .dispatch e => "dispatch error: " ++ e
  | .config e => "configuration error: " ++ e

/-- A rule result as it is stored. -/
structure StoredResult where
  ruleResult : RuleResult

namespace StoredResult

/-- The record's fields. -/
def shape : Shape := ⟨"StoredRuleResult", ["ruleResult"]⟩

/-- Read a stored record. -/
def read : Reader StoredResult :=
  Draft.record shape fun p ↦ StoredResult.mk <$> p.required "ruleResult" RuleResult.read

/-- The stored form. -/
def toJson (s : StoredResult) : Json := .obj [("ruleResult", s.ruleResult.toJson)]

end StoredResult

/-- Read every record as a rule result. -/
def Store.decodeAll : List Json → Except Fault (List RuleResult)
  | [] => .ok []
  | j :: rest => do
    let stored ← StoredResult.read (Draft.ofJson j)
    return stored.ruleResult :: (← decodeAll rest)

/-- A store of records of any kind, as a machine: what it answers in a state, and the state after
that. It may change its state even where it answers with an error. -/
structure RecordStore (σ : Type) where
  /-- Add a record under a key and list everything under it. -/
  appendAndList : σ → String → Json → σ × Except String (Option (List Json))
  /-- Remove everything under a key. -/
  delete : σ → String → σ × Except String Unit

namespace RecordStore

variable {σ : Type}

/-- Save a rule result under a key and get everything saved under it. -/
def save (store : RecordStore σ) (state : σ) (key : String) (r : RuleResult) :
    σ × Except Failure (Option (List RuleResult)) :=
  match store.appendAndList state key (StoredResult.toJson ⟨r⟩) with
  | (after, .ok (some records)) =>
    (after, match Store.decodeAll records with
      | .ok results => .ok (some results)
      | .error fault => .error (.serialization fault))
  | (after, .ok none) => (after, .ok none)
  | (after, .error e) => (after, .error (.accumulator e))

/-- Remove everything saved under a key. -/
def remove (store : RecordStore σ) (state : σ) (key : String) : σ × Except Failure Unit :=
  match store.delete state key with
  | (after, .ok ()) => (after, .ok ())
  | (after, .error e) => (after, .error (.accumulator e))

end RecordStore

namespace Store

/-- Add a raw record under a key and list everything under it. -/
def appendAndList (mode : AppendMode) (s : Store) (now : Nat) (key : String) (record : Json) :
    Store × Except String (Option (List Json)) :=
  match mode with
  | .works =>
    let after := s.append now key record
    (after, .ok (some (after.records key)))
  | .answersNothing => (s, .ok none)
  | .fails error => (s, .error error)

/-- Remove the entry of a key, if the store deletes. -/
def tryDelete (error? : Option String) (s : Store) (key : String) : Store × Except String Unit :=
  match error? with
  | none => (s.delete key, .ok ())
  | some error => (s, .error error)

/-- The store of interim records, as it works at a time. -/
def working (mode : StoreMode) (now : Nat) : RecordStore Store where
  appendAndList := fun s key record ↦ appendAndList mode.append s now key record
  delete := tryDelete mode.deleteError

/-- Save a rule result under a key and get everything saved under it. -/
def save (mode : StoreMode) (s : Store) (now : Nat) (key : String) (r : RuleResult) :
    Store × Except Failure (Option (List RuleResult)) :=
  (working mode now).save s key r

/-- Remove everything saved under a key, at any time. -/
def remove (mode : StoreMode) (s : Store) (key : String) : Store × Except Failure Unit :=
  (working mode 0).remove s key

/-- A rule result is saved by appending its record and reading all records. -/
theorem save_eq_appendAndList (mode : StoreMode) (s : Store) (now : Nat) (key : String)
    (r : RuleResult) :
    s.save mode now key r =
      match appendAndList mode.append s now key (StoredResult.toJson ⟨r⟩) with
      | (after, .ok (some records)) =>
        (after, match decodeAll records with
          | .ok results => .ok (some results)
          | .error fault => .error (.serialization fault))
      | (after, .ok none) => (after, .ok none)
      | (after, .error e) => (after, .error (.accumulator e)) := by
  simp only [save, RecordStore.save, working]
  obtain ⟨after, _ | _ | records⟩ :=
    appendAndList mode.append s now key (StoredResult.toJson ⟨r⟩) <;> rfl

/-- What is saved is removed by deleting it. -/
theorem remove_eq_tryDelete (mode : StoreMode) (s : Store) (key : String) :
    s.remove mode key =
      match tryDelete mode.deleteError s key with
      | (after, .ok ()) => (after, .ok ())
      | (after, .error e) => (after, .error (.accumulator e)) := by
  simp only [remove, RecordStore.remove, working]
  obtain ⟨after, _ | _⟩ := tryDelete mode.deleteError s key <;> rfl

end Store
end RiskTypology
