import Mathlib.Data.Finset.Card
import Std.Data.HashMap

/-!
# The last of some items

Of items under one key the last counts. A table into which items are put one after the other has
under each key the last of them, and as many entries as the items have keys.
-/

namespace RiskTypology

/-- The last of some items with a property. -/
def IsLast {α : Type} (p : α → Prop) (xs : List α) (x : α) : Prop :=
  ∃ before after, xs = before ++ x :: after ∧ p x ∧ ∀ y ∈ after, ¬ p y

/-- A search from behind finds the last. -/
theorem isLast_iff_findRev? {α : Type} {p : α → Bool} {xs : List α} {x : α} :
    IsLast (p · = true) xs x ↔ xs.findRev? p = some x := by
  rw [List.findRev?_eq_find?_reverse, List.find?_eq_some_iff_append, IsLast]
  constructor
  · rintro ⟨before, after, rfl, hx, hafter⟩
    refine ⟨hx, after.reverse, before.reverse, by simp, ?_⟩
    simpa using hafter
  · rintro ⟨hx, front, back, hxs, hfront⟩
    refine ⟨back.reverse, front.reverse, ?_, hx, by simpa using hfront⟩
    rw [← List.reverse_reverse xs, hxs]
    simp

section

variable {α κ : Type} [BEq κ] [LawfulBEq κ] [Hashable κ] (key : α → κ) (xs : List α)

/-- A table of items has under a key what a search from behind finds. -/
theorem getElem?_ofList_keyed (k : κ) :
    (Std.HashMap.ofList (xs.map fun x ↦ (key x, x)))[k]? = xs.findRev? (key · == k) := by
  rw [Std.HashMap.ofList_eq_insertMany_empty, Std.HashMap.getElem?_insertMany_list,
    Std.HashMap.getElem?_empty, Option.or_none, List.findSomeRev?_eq_findSome?_reverse,
    ← List.map_reverse, List.findSome?_map, List.findRev?_eq_find?_reverse,
    List.find?_eq_findSome?_guard]
  rfl

/-- A table of items has as many entries as the items have keys. -/
theorem size_ofList_keyed [DecidableEq κ] :
    (Std.HashMap.ofList (xs.map fun x ↦ (key x, x))).size = (xs.map key).toFinset.card := by
  rw [← Std.HashMap.length_keys, ← List.toFinset_card_of_nodup Std.HashMap.nodup_keys]
  congr 1
  ext k
  simp [Std.HashMap.mem_keys, Std.HashMap.mem_ofList]

end

end RiskTypology
