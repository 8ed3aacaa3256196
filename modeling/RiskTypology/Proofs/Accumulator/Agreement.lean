import RiskTypology.Proofs.Accumulator.Log

/-!
# Stores that agree on a key

Stores without a time to live agree on a key when they hold the same records under it, or when
neither has an entry for it. What is saved or deleted under the key leaves them in agreement, and a
save answers the same in both; what is saved or deleted under other keys does not show.
-/

namespace RiskTypology.Store

/-- An appended record comes last in the entry of its key. -/
theorem records?_append_self {s : Store} (h : s.ttl = none) (now : Nat) (key : String)
    (record : Json) :
    (s.append now key record).records? key = some (s.records key ++ [record]) := by
  rw [records?, get?_append_self h, Option.map_some]

/-- Two stores without a time to live that have the same records under a key, if any. -/
structure Agree (key : String) (s s' : Store) : Prop where
  ttl : s.ttl = none
  ttl' : s'.ttl = none
  records? : s.records? key = s'.records? key

namespace Agree

variable {key : String} {s s' : Store}

/-- An append under the key leaves both with the same records. -/
theorem append (h : Agree key s s') (now now' : Nat) (record : Json) :
    Agree key (s.append now key record) (s'.append now' key record) where
  ttl := (ttl_append _ _ _ _).trans h.ttl
  ttl' := (ttl_append _ _ _ _).trans h.ttl'
  records? := by
    rw [records?_append_self h.ttl, records?_append_self h.ttl', records, h.records?, records]

/-- A deletion of the key leaves both without an entry. -/
theorem delete (h : Agree key s s') : Agree key (s.delete key) (s'.delete key) where
  ttl := h.ttl
  ttl' := h.ttl'
  records? := by rw [Store.records?, Store.records?, get?_delete_self, get?_delete_self]

/-- Saving under the key answers the same in both. -/
theorem save (h : Agree key s s') (mode : StoreMode) (now now' : Nat) (r : RuleResult) :
    (s.save mode now key r).2 = (s'.save mode now' key r).2 ∧
      Agree key (s.save mode now key r).1 (s'.save mode now' key r).1 := by
  simp only [Store.save_eq_appendAndList]
  unfold appendAndList
  cases mode.append with
  | answersNothing => exact ⟨rfl, h⟩
  | fails error => exact ⟨rfl, h⟩
  | works =>
    have ha := h.append now now' (StoredResult.toJson ⟨r⟩)
    refine ⟨?_, ha⟩
    simp only [records, ha.records?]

variable {other : String} (hne : key ≠ other)

include hne

/-- Saving under another key leaves stores in agreement. -/
theorem save_other (h : Agree key s s') (mode : StoreMode) (now : Nat) (r : RuleResult) :
    Agree key (s.save mode now other r).1 s' := by
  simp only [Store.save_eq_appendAndList]
  unfold appendAndList
  cases mode.append with
  | answersNothing => exact h
  | fails error => exact h
  | works =>
    refine ⟨(ttl_append _ _ _ _).trans h.ttl, h.ttl', ?_⟩
    rw [Store.records?, get?_append_of_ne h.ttl _ _ hne]
    exact h.records?

/-- Deleting another key leaves stores in agreement. -/
theorem delete_other (h : Agree key s s') : Agree key (s.delete other) s' := by
  refine ⟨h.ttl, h.ttl', ?_⟩
  rw [Store.records?, get?_delete_of_ne _ hne]
  exact h.records?

end Agree
end RiskTypology.Store
