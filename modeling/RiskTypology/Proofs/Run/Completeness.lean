import RiskTypology.Proofs.Run.Turns

/-!
# Completeness

How the counts of a transaction move while deletions may fail. As long as the entry is not deleted
it only grows, and with it the number of different rule ids that are stored, so a transaction that
is complete stays so, whatever is reported next, until a turn can delete its entry.
-/

namespace RiskTypology

/-- Results that go on with more results bring no fewer rule ids. -/
theorem RuleResult.distinctCount_le_of_prefix {results more : List RuleResult}
    (h : results <+: more) : distinctCount results ≤ distinctCount more := by
  have hsub : distinctIds results ⊆ distinctIds more := by
    intro id hid
    obtain ⟨r, hr, rfl⟩ := mem_distinctIds.mp hid
    exact mem_distinctIds.mpr ⟨r, h.subset hr, rfl⟩
  exact (List.subperm_of_subset (nodup_distinctIds results) hsub).length_le

namespace Turn

/-- Whether the turn's counts are complete; those of an aborted turn are not. -/
def isComplete (t : Turn) : Bool := t.pass.outcome.counts.any RuleCounts.isComplete

/-- Whether deletions succeed at the time of the turn. -/
def canDelete (t : Turn) : Bool := t.services.store.deleteError.isNone

/-- A turn that cannot delete does not clean up. -/
theorem cleanedUp_of_not_canDelete {t : Turn} (h : t.canDelete = false) :
    t.pass.outcome.cleanedUp = false := by
  rw [Bool.eq_false_iff]
  intro hc
  have hd := Pass.deleteError_of_cleanedUp hc
  rw [canDelete, hd] at h
  cases h

end Turn

namespace Gathering

variable {map : NetworkMap} {messageId : String} {store : Store}
  {inputs : List (Services × Event)} (hg : Gathering messageId store inputs)
  {earlier between later : List Turn} {here there : Turn}

include hg in
/-- A turn is complete exactly when as many rule ids are stored as its map waits for. -/
theorem isComplete_iff (h : turns store inputs = earlier ++ here :: later) :
    here.isComplete = true ↔
      here.event.networkMap.ruleCount ≤ RuleResult.distinctCount here.results := by
  rw [Turn.isComplete, hg.counts_turn h, Option.any_some, Pass.counts, RuleCounts.isComplete,
    decide_eq_true_iff]

include hg in
/-- A turn that is complete cleans up exactly when it can delete. -/
theorem cleanedUp_of_isComplete (h : turns store inputs = earlier ++ here :: later)
    (hc : here.isComplete = true) : here.pass.outcome.cleanedUp = here.canDelete := by
  rw [Turn.isComplete, hg.counts_turn h, Option.any_some] at hc
  rw [Bool.eq_iff_iff, hg.cleanedUp_turn_iff h, hc, Turn.canDelete, Option.isNone_iff_eq_none]
  exact and_iff_right rfl

/-- The counts of a transaction whose events carry one map, between two turns of it, whatever is
reported and whatever fails besides appending. Neither turn is aborted, and both count against the
whole map. If no turn has cleaned up from the first on, the second has no fewer rule ids stored. If
the first is complete and none has been able to delete since, the second is complete too, and if it
can delete it cleans up and leaves no entry. -/
theorem complete_until_deleted (hg : Gathering messageId store inputs)
    (hm : ∀ input ∈ inputs, input.2.networkMap = map)
    (h : turns store inputs = earlier ++ here :: (between ++ there :: later)) :
    (∃ stored stored', here.pass.outcome.counts = some ⟨stored, map.ruleCount⟩ ∧
      there.pass.outcome.counts = some ⟨stored', map.ruleCount⟩ ∧
      ((∀ t ∈ here :: between, t.pass.outcome.cleanedUp = false) → stored ≤ stored')) ∧
    (here.isComplete = true → (∀ t ∈ here :: between, t.canDelete = false) →
      there.isComplete = true ∧
      (there.canDelete = true → there.pass.outcome.cleanedUp = true ∧
        there.pass.store.contains (Transaction.cacheKeyOf messageId) = false)) := by
  have hthere : turns store inputs = (earlier ++ here :: between) ++ there :: later := by
    rw [h, List.append_assoc, List.cons_append]
  have hmap := hm _ (mem_inputs (mem_turns h))
  have hmap' := hm _ (mem_inputs (mem_turns hthere))
  have hgrows (hkeeps : ∀ t ∈ here :: between, t.pass.outcome.cleanedUp = false) :
      RuleResult.distinctCount here.results ≤ RuleResult.distinctCount there.results :=
    RuleResult.distinctCount_le_of_prefix (hg.results_prefix h hkeeps)
  refine ⟨⟨_, _, ?_, ?_, hgrows⟩, ?_⟩
  · rw [hg.counts_turn h, Pass.counts, hmap]
  · rw [hg.counts_turn hthere, Pass.counts, hmap']
  · intro hc hd
    have hcomplete : there.isComplete = true := by
      rw [hg.isComplete_iff h, hmap] at hc
      rw [hg.isComplete_iff hthere, hmap']
      exact hc.trans (hgrows fun t ht ↦ Turn.cleanedUp_of_not_canDelete (hd t ht))
    refine ⟨hcomplete, fun hdelete ↦ ?_⟩
    have hcleaned : there.pass.outcome.cleanedUp = true := by
      rw [hg.cleanedUp_of_isComplete hthere hcomplete, hdelete]
    exact ⟨hcleaned, hg.contains_of_cleanedUp hthere hcleaned⟩

private def bothNeeded : NetworkMap := .ofTypologies [⟨"T", "1", [⟨"A", "1"⟩, ⟨"B", "1"⟩]⟩]

private def brokenDown : Services :=
  { routes := ⟨fun _ _ ↦ .error "down", "cms", fun _ _ ↦ some "down", fun _ ↦ 0⟩,
    store := { deleteError := some "connection refused" } }

private def stuckInputs : List (Services × Event) :=
  [(Services.plain, .ofRule bothNeeded "m" "A" "1"), (brokenDown, .ofRule bothNeeded "m" "B" "1"),
    (brokenDown, .ofRule bothNeeded "m" "X" "7"), (Services.plain, .ofRule bothNeeded "m" "B" "1")]

private def openingTurn : Turn := ⟨Services.plain, .ofRule bothNeeded "m" "A" "1", {}⟩

private def completingTurn : Turn :=
  ⟨brokenDown, .ofRule bothNeeded "m" "B" "1", openingTurn.pass.store⟩

private def strayTurn : Turn :=
  ⟨brokenDown, .ofRule bothNeeded "m" "X" "7", completingTurn.pass.store⟩

private def deletingTurn : Turn :=
  ⟨Services.plain, .ofRule bothNeeded "m" "B" "1", strayTurn.pass.store⟩

/-- Both rules are reported while nothing can be deleted, looked up or sent, and then a rule the map
does not wait for: the transaction stays complete, and the first turn that can delete its entry
does, although it reports a rule again. -/
theorem complete_while_broken_down :
    Gathering "m" {} stuckInputs ∧ (∀ input ∈ stuckInputs, input.2.networkMap = bothNeeded) ∧
      turns {} stuckInputs =
        [openingTurn] ++ completingTurn :: ([strayTurn] ++ deletingTurn :: []) ∧
      completingTurn.isComplete = true ∧
      (∀ t ∈ [completingTurn, strayTurn], t.canDelete = false) ∧
      deletingTurn.isComplete = true ∧ deletingTurn.pass.outcome.cleanedUp = true ∧
      deletingTurn.pass.store.contains "TP_m" = false := by
  have hg : Gathering "m" {} stuckInputs := by
    constructor
    · rfl
    all_goals decide
  have hm : ∀ input ∈ stuckInputs, input.2.networkMap = bothNeeded := by decide
  have h : turns {} stuckInputs =
      [openingTurn] ++ completingTurn :: ([strayTurn] ++ deletingTurn :: []) := rfl
  have hc : completingTurn.isComplete = true := by decide
  have hd : ∀ t ∈ [completingTurn, strayTurn], t.canDelete = false := by decide
  obtain ⟨hcomplete, hdeleted⟩ := (complete_until_deleted hg hm h).2 hc hd
  exact ⟨hg, hm, h, hc, hd, hcomplete, hdeleted rfl⟩

end Gathering
end RiskTypology
