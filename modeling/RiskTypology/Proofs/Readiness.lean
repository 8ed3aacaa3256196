import Mathlib.Data.List.Basic
import RiskTypology.Proofs.Requirement
import RiskTypology.Proofs.Routing.DefaultChannel

/-!
# Readiness

A report is ready when as many distinct ids have been gathered for it as its typology waits for.
Since only ids the typology waits for are gathered for it, that is the case exactly when every one
of them has a result, and neither redelivered results nor those of other rules make it so.
-/

namespace RiskTypology

variable (map : NetworkMap) (gathered : List RuleResult)

private theorem distinctIds_relevant_subset (id cfg : String) :
    RuleResult.distinctIds (relevant map gathered id cfg) ⊆ map.requiredRuleIds id cfg := by
  intro ruleId h
  obtain ⟨r, hr, rfl⟩ := RuleResult.mem_distinctIds.mp h
  simpa using (List.mem_filter.mp hr).2

private theorem haveAll_relevant (id cfg : String) :
    RuleResult.haveAll (relevant map gathered id cfg) (map.requiredRuleIds id cfg) =
      RuleResult.haveAll gathered (map.requiredRuleIds id cfg) := by
  rw [Bool.eq_iff_iff, RuleResult.haveAll_iff, RuleResult.haveAll_iff]
  constructor
  · intro h ruleId hid
    obtain ⟨r, hr, he⟩ := h ruleId hid
    exact ⟨r, (List.mem_filter.mp hr).1, he⟩
  · intro h ruleId hid
    obtain ⟨r, hr, rfl⟩ := h ruleId hid
    exact ⟨r, List.mem_filter.mpr ⟨hr, by simpa using hid⟩, rfl⟩

/-- The report on what is gathered for a typology. -/
def reported (key : String × String) : TypologyResult :=
  .unscored key.1 key.2 (relevant map gathered key.1 key.2)

/-- The report on what is gathered for a typology is ready exactly when every rule id the typology
waits for has a gathered result. -/
theorem isReady_reported (key : String × String) :
    isReady map (reported map gathered key) =
      RuleResult.haveAll gathered (map.requiredRuleIds key.1 key.2) := by
  rw [← haveAll_relevant, Bool.eq_iff_iff, RuleResult.haveAll_iff_subset,
    ← Distinct.length_le_iff_subset (map.nodup_requiredRuleIds key.1 key.2)
      (RuleResult.nodup_distinctIds _) (distinctIds_relevant_subset map gathered key.1 key.2)]
  simp only [isReady, decide_eq_true_eq]
  rfl

/-- A typology that waits for anything is reported on, if it is ready. -/
private theorem report?_of_haveAll {key : String × String}
    (hne : map.requiredRuleIds key.1 key.2 ≠ [])
    (h : RuleResult.haveAll gathered (map.requiredRuleIds key.1 key.2) = true) :
    report? map gathered key = some (reported map gathered key) := by
  obtain ⟨ruleId, hid⟩ := List.exists_mem_of_ne_nil _ hne
  rw [← haveAll_relevant] at h
  obtain ⟨r, hr, -⟩ := RuleResult.haveAll_iff.mp h ruleId hid
  unfold report?
  split
  · next hn =>
    rw [hn] at hr
    cases hr
  · rfl

private theorem ready_report? (key : String × String)
    (hne : map.requiredRuleIds key.1 key.2 ≠ []) :
    (report? map gathered key).filter (isReady map) =
      if RuleResult.haveAll gathered (map.requiredRuleIds key.1 key.2)
      then some (reported map gathered key) else none := by
  cases h : RuleResult.haveAll gathered (map.requiredRuleIds key.1 key.2) with
  | true =>
    rw [report?_of_haveAll map gathered hne h, Option.filter_some, isReady_reported, h]
  | false =>
    unfold report?
    split
    · rfl
    · have hr := isReady_reported map gathered key
      rw [reported, h] at hr
      rw [Option.filter_some, hr]
      rfl

/-- Of the reports on the typologies a new result touches, those are ready whose every rule id has a
result. -/
theorem ready_aggregate (new : RuleResult) :
    (aggregate map gathered new).results.filter (isReady map) =
      ((touchedBy map new).filter fun key ↦
        RuleResult.haveAll gathered (map.requiredRuleIds key.1 key.2)).map
          (reported map gathered) := by
  have hne : ∀ key ∈ touchedBy map new, map.requiredRuleIds key.1 key.2 ≠ [] := fun key hk ↦
    List.ne_nil_of_mem ((map.mem_touchedBy.mp hk).mem_requiredRuleIds)
  simp only [aggregate]
  rw [List.filter_filterMap, ← List.filterMap_eq_map, List.filterMap_filter]
  apply List.filterMap_congr
  intro key hk
  exact ready_report? map gathered key (hne key hk)

/-- Of the typologies a new result touches, those are ready whose every rule id has a result. -/
theorem map_key_ready_aggregate (new : RuleResult) :
    ((aggregate map gathered new).results.filter (isReady map)).map (·.key) =
      (touchedBy map new).filter fun key ↦
        RuleResult.haveAll gathered (map.requiredRuleIds key.1 key.2) := by
  rw [ready_aggregate, List.map_map]
  exact List.map_id _

end RiskTypology
