import RiskTypology.Proofs.Pass.Finish

/-!
# Completion

When a pass cleans up. The entry of a transaction is deleted as soon as as many distinct rule ids
are stored as the map waits for. Ids the map does not wait for count too, so each of them makes up
for one that is outstanding; without any the entry is deleted exactly when nothing is outstanding.
-/

namespace RiskTypology

/-- The rule ids a map waits for that no result brings. -/
def outstanding (map : NetworkMap) (results : List RuleResult) : List String :=
  map.allRuleIds.filter (!(RuleResult.distinctIds results).contains ·)

/-- The distinct ids of results that a map does not wait for. -/
def stray (map : NetworkMap) (results : List RuleResult) : List String :=
  (RuleResult.distinctIds results).filter (!map.allRuleIds.contains ·)

/-- Nothing is outstanding exactly when all rule ids of the map have results. -/
theorem outstanding_eq_nil_iff {map : NetworkMap} {results : List RuleResult} :
    outstanding map results = [] ↔ RuleResult.haveAll results map.allRuleIds = true := by
  rw [outstanding, List.filter_eq_nil_iff, RuleResult.haveAll_iff_subset]
  constructor
  · intro h id hid
    simpa using h id hid
  · intro h id hid
    simpa using h hid

/-- No result is stray exactly when the map waits for the id of each. -/
theorem stray_eq_nil_iff {map : NetworkMap} {results : List RuleResult} :
    stray map results = [] ↔ ∀ r ∈ results, r.id ∈ map.allRuleIds := by
  rw [stray, List.filter_eq_nil_iff]
  constructor
  · intro h r hr
    simpa using h r.id (RuleResult.mem_distinctIds.mpr ⟨r, hr, rfl⟩)
  · intro h id hid
    obtain ⟨r, hr, rfl⟩ := RuleResult.mem_distinctIds.mp hid
    simpa using h r hr

namespace Pass

/-- The counts are complete exactly when there are no more outstanding ids than stray ones. -/
theorem isComplete_counts (event : Event) (results : List RuleResult) :
    (counts event results).isComplete = true ↔
      (outstanding event.networkMap results).length ≤ (stray event.networkMap results).length := by
  rw [outstanding, stray, ← Distinct.length_le_iff (event.networkMap.nodup_allRuleIds)
    (RuleResult.nodup_distinctIds results)]
  exact decide_eq_true_iff

/-- Without stray results the counts are complete exactly when all rule ids have results. -/
theorem isComplete_counts_of_no_stray {event : Event} {results : List RuleResult}
    (h : ∀ r ∈ results, r.id ∈ event.networkMap.allRuleIds) :
    (counts event results).isComplete = RuleResult.haveAll results event.networkMap.allRuleIds := by
  rw [Bool.eq_iff_iff, isComplete_counts, stray_eq_nil_iff.mpr h, List.length_nil, Nat.le_zero,
    List.length_eq_zero_iff, outstanding_eq_nil_iff]

/-- A pass that can delete cleans up exactly when its counts are complete. -/
theorem cleanedUp_run {services : Services} {store : Store} {event : Event}
    (h : (run services store event).outcome.isAborted = false)
    (hd : services.store.deleteError = none) :
    (run services store event).outcome.cleanedUp =
      (counts event (gathered services store event)).isComplete := by
  obtain ⟨after, hr⟩ := run_of_not_aborted services store event h
  rw [hr, Bool.eq_iff_iff, cleanedUp_finish]
  simp [hd]

/-- A pass that can delete cleans up exactly when no more rule ids of the map are outstanding than
stray ones are stored. So it does whenever every rule of the map has a stored result, and only then
if every stored result is of a rule of the map. -/
theorem cleanedUp_iff_outstanding_le_stray (services : Services) (store : Store) (event : Event)
    (h : (run services store event).outcome.isAborted = false)
    (hd : services.store.deleteError = none) :
    ((run services store event).outcome.cleanedUp = true ↔
      (outstanding event.networkMap (gathered services store event)).length ≤
        (stray event.networkMap (gathered services store event)).length) ∧
    ((∀ t ∈ event.networkMap.typologies, ∀ rule ∈ t.rules,
      ∃ r ∈ gathered services store event, r.id = rule.id) →
        (run services store event).outcome.cleanedUp = true) ∧
    ((∀ r ∈ gathered services store event,
        ∃ t ∈ event.networkMap.typologies, ∃ rule ∈ t.rules, rule.id = r.id) →
      ((run services store event).outcome.cleanedUp = true ↔
        ∀ t ∈ event.networkMap.typologies, ∀ rule ∈ t.rules,
          ∃ r ∈ gathered services store event, r.id = rule.id)) := by
  rw [cleanedUp_run h hd, ← NetworkMap.haveAll_ruleIds]
  refine ⟨isComplete_counts _ _, ?_, ?_⟩
  · intro hall
    rw [isComplete_counts, outstanding_eq_nil_iff.mpr hall]
    exact Nat.zero_le _
  · intro hs
    rw [isComplete_counts_of_no_stray fun r hr ↦ event.networkMap.mem_allRuleIds.mpr (hs r hr),
      NetworkMap.allRuleIds]

private def twoRules : NetworkMap := .ofTypologies [⟨"T", "1", [⟨"A", "1"⟩, ⟨"B", "1"⟩]⟩]

private def firstStored : Store := (run Services.plain {} (.ofRule twoRules "m" "A" "1")).store

/-- One outstanding rule and no stray result: the entry stays. -/
theorem cleanedUp_one_outstanding :
    (run Services.plain {} (.ofRule twoRules "m" "A" "1")).outcome.isAborted = false ∧
      Services.plain.store.deleteError = none ∧
      (run Services.plain {} (.ofRule twoRules "m" "A" "1")).outcome.cleanedUp ≠ true := by
  have h : (run Services.plain {} (.ofRule twoRules "m" "A" "1")).outcome.isAborted = false := by
    decide
  have hd : Services.plain.store.deleteError = none := rfl
  refine ⟨h, hd, ?_⟩
  rw [ne_eq, (cleanedUp_iff_outstanding_le_stray _ _ _ h hd).1]
  decide

/-- A stray result stands in for an outstanding rule: the entry is deleted although a rule of the
map has no stored result. -/
theorem stray_completes :
    (run Services.plain firstStored (.ofRule twoRules "m" "X" "1")).outcome.isAborted = false ∧
      Services.plain.store.deleteError = none ∧
      ¬ ((run Services.plain firstStored (.ofRule twoRules "m" "X" "1")).outcome.cleanedUp = true ↔
        ∀ t ∈ twoRules.typologies, ∀ rule ∈ t.rules,
          ∃ r ∈ gathered Services.plain firstStored (.ofRule twoRules "m" "X" "1"),
            r.id = rule.id) := by
  decide

end Pass
end RiskTypology
