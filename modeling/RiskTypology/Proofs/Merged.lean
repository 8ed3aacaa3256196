import Mathlib.Data.Finset.Dedup
import RiskTypology.Proofs.Requirement
import RiskTypology.Routing

/-!
# The merged view of a map

A map may list a typology several times, under several channels and with part of its rules each
time. How it does so does not matter: what waits for what follows from the rules that each typology
has over all its listings. Maps with the same merged view wait for equally many rules, report the
same on any gathered results, in some order, and find the same reports ready.
-/

namespace RiskTypology

namespace NetworkMap

/-- The rules of each typology, over all its listings. A typology that is listed without rules does
not show. -/
def merged (map : NetworkMap) : Finset ((String × String) × Rule) :=
  (map.typologies.flatMap fun t ↦ t.rules.map fun rule ↦ (t.key, rule)).toFinset

/-- A rule is one of a typology if some listing of the typology has it. -/
theorem mem_merged {map : NetworkMap} {key : String × String} {rule : Rule} :
    (key, rule) ∈ map.merged ↔ ∃ t ∈ map.listings key.1 key.2, rule ∈ t.rules := by
  rw [merged, List.mem_toFinset, List.mem_flatMap]
  constructor
  · rintro ⟨t, ht, hr⟩
    obtain ⟨own, hown, he⟩ := List.mem_map.mp hr
    obtain ⟨rfl, rfl⟩ := Prod.mk.inj he
    exact ⟨t, map.mem_listings.mpr ⟨ht, rfl, rfl⟩, hown⟩
  · rintro ⟨t, ht, hr⟩
    obtain ⟨hm, hid, hcfg⟩ := map.mem_listings.mp ht
    exact ⟨t, hm, List.mem_map.mpr ⟨rule, hr, Prod.ext (Prod.ext hid hcfg) rfl⟩⟩

/-- What a typology waits for is in the merged view. -/
theorem waitsFor_iff_mem_merged {map : NetworkMap} {key : String × String} {id cfg : String} :
    map.WaitsFor key id cfg ↔ (key, ⟨id, cfg⟩) ∈ map.merged := by
  rw [mem_merged]
  constructor
  · rintro ⟨t, ht, rule, hr, rfl, rfl⟩
    exact ⟨t, ht, hr⟩
  · rintro ⟨t, ht, hr⟩
    exact ⟨t, ht, _, hr, rfl, rfl⟩

/-- Maps have the same merged view exactly if in both each typology waits for the same rules. -/
theorem merged_eq_iff {map map' : NetworkMap} :
    map.merged = map'.merged ↔
      ∀ key id cfg, map.WaitsFor key id cfg ↔ map'.WaitsFor key id cfg := by
  simp only [waitsFor_iff_mem_merged]
  constructor
  · intro h key id cfg
    rw [h]
  · intro h
    ext ⟨key, id, cfg⟩
    exact h key id cfg

/-- The rule ids a typology waits for are in the merged view, each in some version. -/
theorem mem_requiredRuleIds_iff_merged {map : NetworkMap} {id cfg ruleId : String} :
    ruleId ∈ map.requiredRuleIds id cfg ↔
      ∃ version, ((id, cfg), ⟨ruleId, version⟩) ∈ map.merged := by
  simp only [mem_requiredRuleIds, mem_merged]
  constructor
  · rintro ⟨t, ht, rule, hr, rfl⟩
    exact ⟨rule.cfg, t, ht, hr⟩
  · rintro ⟨version, t, ht, hr⟩
    exact ⟨t, ht, _, hr, rfl⟩

/-- The rule ids a map waits for are those some typology waits for. -/
theorem mem_allRuleIds_iff_required {map : NetworkMap} {ruleId : String} :
    ruleId ∈ map.allRuleIds ↔ ∃ id cfg, ruleId ∈ map.requiredRuleIds id cfg := by
  simp only [mem_allRuleIds, mem_requiredRuleIds, mem_listings]
  constructor
  · rintro ⟨t, ht, hr⟩
    exact ⟨t.id, t.cfg, t, ⟨ht, rfl, rfl⟩, hr⟩
  · rintro ⟨id, cfg, t, ⟨ht, -⟩, hr⟩
    exact ⟨t, ht, hr⟩

end NetworkMap

section

variable {map map' : NetworkMap} (h : map.merged = map'.merged)

include h

/-- With the same merged view each typology waits for the same rule ids. -/
theorem requiredRuleIds_perm_of_merged_eq (id cfg : String) :
    (map.requiredRuleIds id cfg).Perm (map'.requiredRuleIds id cfg) := by
  rw [List.perm_ext_iff_of_nodup (map.nodup_requiredRuleIds _ _) (map'.nodup_requiredRuleIds _ _)]
  intro ruleId
  rw [NetworkMap.mem_requiredRuleIds_iff_merged, NetworkMap.mem_requiredRuleIds_iff_merged, h]

/-- With the same merged view maps wait for equally many rules. -/
theorem ruleCount_eq_of_merged_eq : map.ruleCount = map'.ruleCount := by
  apply List.Perm.length_eq
  rw [List.perm_ext_iff_of_nodup map.nodup_allRuleIds map'.nodup_allRuleIds]
  intro ruleId
  simp only [NetworkMap.mem_allRuleIds_iff_required,
    (requiredRuleIds_perm_of_merged_eq h _ _).mem_iff]

/-- With the same merged view a result touches the same typologies. -/
theorem touchedBy_perm_of_merged_eq (new : RuleResult) :
    (touchedBy map new).Perm (touchedBy map' new) := by
  rw [List.perm_ext_iff_of_nodup (map.nodup_touchedBy new) (map'.nodup_touchedBy new)]
  intro key
  rw [NetworkMap.mem_touchedBy, NetworkMap.mem_touchedBy, NetworkMap.waitsFor_iff_mem_merged,
    NetworkMap.waitsFor_iff_mem_merged, h]

/-- With the same merged view the same gathered results are reported on. -/
theorem report?_eq_of_merged_eq (gathered : List RuleResult) :
    report? map gathered = report? map' gathered := by
  have hrelevant (id cfg : String) :
      relevant map gathered id cfg = relevant map' gathered id cfg := by
    apply List.filter_congr
    intro r _
    exact (requiredRuleIds_perm_of_merged_eq h id cfg).contains_eq
  funext key
  rw [report?, report?, hrelevant]

/-- With the same merged view the same reports are ready. -/
theorem isReady_eq_of_merged_eq : isReady map = isReady map' := by
  funext r
  rw [isReady, isReady, (requiredRuleIds_perm_of_merged_eq h r.id r.cfg).length_eq]

/-- With the same merged view a result gives rise to the same reports, in some order. -/
theorem aggregate_perm_of_merged_eq (gathered : List RuleResult) (new : RuleResult) :
    (aggregate map gathered new).results.Perm (aggregate map' gathered new).results := by
  rw [aggregate, aggregate, report?_eq_of_merged_eq h]
  exact (touchedBy_perm_of_merged_eq h new).filterMap _

end
end RiskTypology
