import RiskTypology.Proofs.Accumulator.Log
import RiskTypology.Proofs.Bare

/-!
# Bare stores

A bare store holds for each stored rule result its outcome alone; records that are no rule results
stay as they are. The operations of a store do not look further than that: on a bare store they do
what they did, and leave and answer the bare form of what they left and answered.
-/

namespace RiskTypology

/-- A record with nothing but the outcome of the rule result it holds, if it holds one. -/
def StoredResult.bare (record : Json) : Json :=
  match read (Draft.ofJson record) with
  | .ok stored => toJson ⟨stored.ruleResult.bare⟩
  | .error _ => record

/-- An entry with bare records. -/
def StoreEntry.bare (e : StoreEntry) : StoreEntry :=
  { e with records := e.records.map StoredResult.bare }

/-- A store with bare records. -/
def Store.bare (s : Store) : Store := { s with entries := s.entries.map fun m ↦ (m.1, m.2.bare) }

/-- The stored form of a rule result is bare when the rule result is. -/
@[simp] theorem StoredResult.bare_toJson (r : RuleResult) :
    bare (toJson ⟨r⟩) = toJson ⟨r.bare⟩ := by
  rw [bare, read_toJson]
  rfl

/-- A bare record is its own bare form. -/
theorem StoredResult.bare_bare (record : Json) : bare (bare record) = bare record := by
  cases hr : read (Draft.ofJson record) with
  | error fault =>
    have hb : bare record = record := by rw [bare, hr]
    rw [hb, hb]
  | ok stored =>
    have hb : bare record = toJson ⟨stored.ruleResult.bare⟩ := by rw [bare, hr]
    rw [hb, bare_toJson]
    rfl

/-- A bare store is its own bare form. -/
@[simp] theorem Store.bare_bare (s : Store) : s.bare.bare = s.bare := by
  simp [bare, StoreEntry.bare, StoredResult.bare_bare, Function.comp_def]

namespace Store

/-- Bare records are read as the bare rule results, or not at all. -/
theorem decodeAll_bare (records : List Json) :
    decodeAll (records.map StoredResult.bare) = (decodeAll records).map (List.map .bare) := by
  induction records with
  | nil => rfl
  | cons j rest ih =>
    rw [List.map_cons, decodeAll, decodeAll, ih]
    cases hj : StoredResult.read (Draft.ofJson j) with
    | error fault =>
      -- It stays as it is, so it is at fault as it was.
      have hb : StoredResult.bare j = j := by rw [StoredResult.bare, hj]
      rw [hb, hj]
      rfl
    | ok stored =>
      have hb : StoredResult.bare j = StoredResult.toJson ⟨stored.ruleResult.bare⟩ := by
        rw [StoredResult.bare, hj]
      rw [hb, StoredResult.read_toJson]
      cases decodeAll rest <;> rfl

variable (s : Store) (now : Nat) (key : String)

/-- The entries of a bare store are the bare entries. -/
theorem get?_bare : s.bare.get? key = (s.get? key).map StoreEntry.bare := by
  simp only [get?, bare]
  induction s.entries with
  | nil => rfl
  | cons m rest ih =>
    rcases m with ⟨k, e⟩
    rw [List.map_cons, List.lookup_cons, List.lookup_cons, ih]
    cases key == k <;> rfl

/-- The records of a bare store are the bare records. -/
theorem records_bare : s.bare.records key = (s.records key).map StoredResult.bare := by
  rw [records, records?, get?_bare, records, records?]
  cases s.get? key <;> rfl

/-- Eviction looks at no record. -/
theorem evict_bare : s.bare.evict now = (s.evict now).bare := by
  cases ht : s.ttl with
  | none => simp [evict, bare, ht]
  | some ttl =>
    simp only [evict, bare, ht, List.filter_map]
    rfl

/-- Deletion looks at no record. -/
theorem delete_bare : s.bare.delete key = (s.delete key).bare := by
  simp only [delete, bare, List.filter_map]
  rfl

private theorem put_bare (entry : StoreEntry) (entries : List (String × StoreEntry)) :
    put key entry.bare (entries.map fun m ↦ (m.1, m.2.bare)) =
      (put key entry entries).map fun m ↦ (m.1, m.2.bare) := by
  induction entries with
  | nil => rfl
  | cons m rest ih =>
    rcases m with ⟨k, e⟩
    by_cases hk : k = key
    · simp [put, hk]
    · simp [put, hk, ih]

/-- A bare record is appended as the record was. -/
theorem append_bare (record : Json) :
    s.bare.append now key (StoredResult.bare record) = (s.append now key record).bare := by
  have hput (kept : Store) (entry : StoreEntry) :
      ({ kept.bare with entries := put key entry.bare kept.bare.entries } : Store) =
        Store.bare { kept with entries := put key entry kept.entries } := by
    simp only [bare, put_bare]
  simp only [append, evict_bare, get?_bare]
  cases (s.evict now).get? key with
  | none => exact hput _ ⟨now, [record]⟩
  | some e =>
    have hrecords : (e.records ++ [record]).map StoredResult.bare =
        e.bare.records ++ [StoredResult.bare record] := List.map_append
    rw [← hput, StoreEntry.bare, hrecords]
    rfl

/-- A bare rule result is saved as the rule result was. -/
theorem save_bare (mode : StoreMode) (r : RuleResult) :
    s.bare.save mode now key r.bare =
      ((s.save mode now key r).1.bare,
        (s.save mode now key r).2.map (Option.map (List.map .bare))) := by
  simp only [save_eq_appendAndList]
  unfold appendAndList
  cases mode.append with
  | answersNothing => rfl
  | fails error => rfl
  | works =>
    have hrecord : StoredResult.toJson ⟨r.bare⟩ = StoredResult.bare (StoredResult.toJson ⟨r⟩) :=
      (StoredResult.bare_toJson r).symm
    simp only [hrecord, append_bare, records_bare, decodeAll_bare]
    cases decodeAll ((s.append now key (StoredResult.toJson ⟨r⟩)).records key) <;> rfl

end Store
end RiskTypology
