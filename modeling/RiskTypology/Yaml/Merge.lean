import RiskTypology.Yaml.Value

/-!
# Merging YAML values

One value over another: mappings are merged key by key and all the way down, and anything else
is replaced. A key that is overridden moves behind those that are not.
-/

namespace RiskTypology.Yaml.Value

/-- The value of a key. -/
def lookup (k : Value) (entries : List (Value × Value)) : Option Value :=
  (entries.find? fun e ↦ e.1 = k).map Prod.snd

/-- Set a key; its entry becomes the last. -/
def insert (k v : Value) (entries : List (Value × Value)) : List (Value × Value) :=
  (entries.filter fun e ↦ e.1 ≠ k) ++ [(k, v)]

mutual

/-- Merge a value over another. -/
def merge (base : Value) : Value → Value
  | .map top =>
    match base with
    | .map entries => .map (mergeEntries entries top entries)
    | _ => .map top
  | top => top

/-- Merge entries over those of a base, one after the other. -/
def mergeEntries (base : List (Value × Value)) :
    List (Value × Value) → List (Value × Value) → List (Value × Value)
  | [], merged => merged
  | (k, v) :: rest, merged =>
    let value := match lookup k base with
      | some b => merge b v
      | none => v
    mergeEntries base rest (insert k value merged)

end

/-- The key that is set has its value. -/
theorem lookup_insert_self (k v : Value) (entries : List (Value × Value)) :
    lookup k (insert k v entries) = some v := by
  simp only [lookup, insert, List.find?_append]
  have h : (entries.filter fun e ↦ e.1 ≠ k).find? (fun e ↦ decide (e.1 = k)) = none := by
    simp [List.find?_eq_none]
  rw [h]
  simp

/-- Other keys keep theirs. -/
theorem lookup_insert_of_ne (k l v : Value) (entries : List (Value × Value)) (h : l ≠ k) :
    lookup l (insert k v entries) = lookup l entries := by
  simp only [lookup, insert, List.find?_append, List.find?_filter]
  have hk : ([(k, v)] : List (Value × Value)).find? (fun e ↦ decide (e.1 = l)) = none := by
    simp [Ne.symm h]
  rw [hk, Option.or_none]
  congr 1
  induction entries with
  | nil => rfl
  | cons e rest ih =>
    by_cases he : e.1 = l
    · simp [he, h]
    · simpa [List.find?_cons, he] using ih

end RiskTypology.Yaml.Value
