import RiskTypology.Proofs.Accumulator.Log

/-!
# Readable records

A store may hold records that are no stored rule results. What a key holds can be read exactly if
each of its records can.
-/

namespace RiskTypology

/-- Whether a record is a stored rule result. -/
def StoredResult.isReadable (record : Json) : Bool := (read (Draft.ofJson record)).isOk

/-- What is stored for a rule result is readable. -/
theorem StoredResult.isReadable_toJson (r : RuleResult) : isReadable (toJson ⟨r⟩) = true := by
  rw [isReadable, read_toJson]
  rfl

/-- Records are read exactly if each of them is readable. -/
theorem Store.isOk_decodeAll_iff {records : List Json} :
    (decodeAll records).isOk = true ↔ ∀ j ∈ records, StoredResult.isReadable j = true := by
  induction records with
  | nil => exact iff_of_true rfl (by simp)
  | cons j rest ih =>
    rw [List.forall_mem_cons, ← ih, StoredResult.isReadable, decodeAll]
    cases StoredResult.read (Draft.ofJson j) with
    | error fault => exact iff_of_false Bool.false_ne_true fun h ↦ Bool.false_ne_true h.1
    | ok stored =>
      cases decodeAll rest with
      | error fault => exact iff_of_false Bool.false_ne_true fun h ↦ Bool.false_ne_true h.2
      | ok results => exact iff_of_true rfl ⟨rfl, rfl⟩

end RiskTypology
