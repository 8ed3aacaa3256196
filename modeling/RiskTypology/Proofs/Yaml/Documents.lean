import RiskTypology.Draft.Read
import RiskTypology.Proofs.Yaml.Merge

/-!
# The documents of a text

No mapping in the documents of a text has a key twice.
-/

namespace RiskTypology.Yaml.Value

/-- Keys are only paired with values when they are new. -/
theorem distinctKeys_of_pair {key : Option Value} {vs : List Value}
    {entries paired : List (Value × Value)} (h : pair key vs entries = .ok paired)
    (hv : ∀ v ∈ vs, v.DistinctKeys) (he : (map entries).DistinctKeys) :
    (map paired).DistinctKeys := by
  induction vs generalizing key entries with
  | nil =>
    cases key <;> cases h <;> exact he
  | cons v rest ih =>
    have hrest : ∀ w ∈ rest, w.DistinctKeys := fun w hw ↦ hv w (List.mem_cons_of_mem _ hw)
    cases key with
    | none => exact ih h hrest he
    | some k =>
      rw [pair] at h
      split at h
      · cases h
      · next hnew =>
        refine ih h hrest ?_
        have hk : k ∉ entries.map Prod.fst := by simpa using hnew
        exact he.concat hk (hv v List.mem_cons_self)

/-- A plain scalar means no mapping. -/
theorem isMap_ofPlain (s : String) : (ofPlain s).isMap = false := by
  rw [ofPlain]
  repeat' split
  all_goals rfl

/-- A tagged scalar means no mapping. -/
theorem isMap_ofTagged (tag : Tag) (s : String) : (ofTagged tag s).isMap = false := by
  rw [ofTagged]
  repeat' split
  all_goals first | rfl | (cases int? 10 s.toList <;> rfl)

mutual

/-- What a node means has no key twice in a mapping. -/
theorem distinctKeys_of_ofNode : ∀ {n : Node} {v : Value}, ofNode n = .ok v → v.DistinctKeys
  | .empty, v, h => by
    cases h
    exact .leaf rfl
  | .unfinished, v, h => by
    cases h
    exact .leaf rfl
  | .scalar style tag s, v, h => by
    refine .leaf ?_
    cases style with
    | plain =>
      cases tag with
      | none =>
        cases h
        exact isMap_ofPlain s
      | some tag =>
        cases h
        exact isMap_ofTagged tag s
    | _ =>
      cases h
      rfl
  | .sequence items, v, h => by
    obtain ⟨vs, -, hlist⟩ := Draft.bind_eq_ok.mp h
    cases hlist
    exact .leaf rfl
  | .mapping entries, v, h => by
    obtain ⟨vs, hvs, h⟩ := Draft.bind_eq_ok.mp h
    obtain ⟨paired, hpaired, hmap⟩ := Draft.bind_eq_ok.mp h
    cases hmap
    exact distinctKeys_of_pair hpaired (distinctKeys_of_ofEntries hvs)
      (distinctKeys_map.mpr (by simp))

private theorem distinctKeys_of_ofEntries : ∀ {entries : List (Node × Node)} {vs : List Value},
    ofEntries entries = .ok vs → ∀ v ∈ vs, v.DistinctKeys
  | [], vs, h => by
    cases h
    simp
  | (k, n) :: rest, vs, h => by
    obtain ⟨key, hkey, h⟩ := Draft.bind_eq_ok.mp h
    obtain ⟨value, hvalue, h⟩ := Draft.bind_eq_ok.mp h
    obtain ⟨others, hothers, hvs⟩ := Draft.bind_eq_ok.mp h
    cases hvs
    simp only [List.forall_mem_cons]
    exact ⟨distinctKeys_of_ofNode hkey, distinctKeys_of_ofNode hvalue,
      distinctKeys_of_ofEntries hothers⟩

end

private theorem distinctKeys_of_ofNodes : ∀ {nodes : List Node} {vs : List Value},
    ofNodes nodes = .ok vs → ∀ v ∈ vs, v.DistinctKeys
  | [], vs, h => by
    cases h
    simp
  | n :: rest, vs, h => by
    obtain ⟨v, hv, h⟩ := Draft.bind_eq_ok.mp h
    obtain ⟨others, hothers, hvs⟩ := Draft.bind_eq_ok.mp h
    cases hvs
    exact List.forall_mem_cons.mpr ⟨distinctKeys_of_ofNode hv, distinctKeys_of_ofNodes hothers⟩

/-- The documents of a text have no key twice in a mapping. -/
theorem distinctKeys_of_documents {text : String} {docs : List Value}
    (h : documents text = .ok docs) : ∀ d ∈ docs, d.DistinctKeys := by
  obtain ⟨nodes, -, hnodes⟩ := Draft.bind_eq_ok.mp h
  exact distinctKeys_of_ofNodes hnodes

end RiskTypology.Yaml.Value
