import RiskTypology.Proofs.Run.Accumulation

/-!
# The lifetime of an entry

Which typologies have left by the time the entry of a transaction is deleted. A typology leaves only
with a report of one of its own rules, in its version. Where the map lists one of its rules in other
versions too, a report of one of those can be the last that was outstanding; the entry is then
deleted and the typology has not left.
-/

namespace RiskTypology

/-- The turns since the entry of a key was made: from the last that found none. -/
def sinceCreation (key : String) : List Turn → List Turn
  | [] => []
  | t :: rest =>
    if rest.any fun u ↦ !u.before.contains key then sinceCreation key rest else t :: rest

/-- If some turn found no entry, the last of them is the first turn since creation. -/
theorem sinceCreation_spec {key : String} {all : List Turn}
    (h : ∃ t ∈ all, t.before.contains key = false) :
    ∃ past first rest, all = past ++ sinceCreation key all ∧
      sinceCreation key all = first :: rest ∧ first.before.contains key = false ∧
      ∀ t ∈ rest, t.before.contains key = true := by
  induction all with
  | nil =>
    obtain ⟨t, ht, -⟩ := h
    cases ht
  | cons first rest ih =>
    rw [sinceCreation]
    by_cases hr : ∃ t ∈ rest, t.before.contains key = false
    · obtain ⟨past, next, later, hpast, hsince, hnext, hlater⟩ := ih hr
      rw [if_pos (by simpa using hr)]
      refine ⟨first :: past, next, later, ?_, hsince, hnext, hlater⟩
      rw [List.cons_append, ← hpast]
    · rw [if_neg (by simpa using hr)]
      refine ⟨[], first, rest, rfl, rfl, ?_, by simpa using hr⟩
      obtain ⟨t, ht, hc⟩ := h
      obtain rfl | ht := List.mem_cons.mp ht
      · exact hc
      · exact absurd ⟨t, ht, hc⟩ hr

namespace Reporting

variable {map : NetworkMap} {messageId : String} {store : Store}
  {inputs : List (Services × Event)} (hr : Reporting map messageId store inputs)
  {earlier later past since rest : List Turn} {here first : Turn}

include hr in
private theorem keeps_of_found (h : turns store inputs = past ++ (since ++ here :: later))
    (hsplit : since ++ [here] = first :: rest)
    (hrest : ∀ t ∈ rest, t.before.contains (Transaction.cacheKeyOf messageId) = true) :
    ∀ t ∈ since, t.pass.outcome.cleanedUp = false := by
  intro t ht
  rw [Bool.eq_false_iff]
  intro hc
  obtain ⟨before, after, rfl⟩ := List.append_of_mem ht
  -- The turn after it finds the store it left.
  obtain ⟨next, tail, hnext⟩ : ∃ next tail, after ++ [here] = next :: tail :=
    List.exists_cons_of_ne_nil (by simp)
  have hrun : turns store inputs = (past ++ before) ++ t :: next :: (tail ++ later) := by
    rw [h, List.append_assoc, List.append_assoc, List.cons_append, ← List.cons_append,
      ← List.cons_append, ← hnext, List.append_assoc]
    rfl
  have hmem : next ∈ rest := by
    rw [List.append_assoc, List.cons_append, hnext] at hsplit
    cases before with
    | nil =>
      obtain ⟨-, rfl⟩ := List.cons.inj hsplit
      simp
    | cons u before =>
      obtain ⟨-, rfl⟩ := List.cons.inj hsplit
      simp
  have hfound := hrest next hmem
  rw [before_next hrun, hr.contains_of_cleanedUp hrun hc] at hfound
  cases hfound

include hr in
/-- The turns since the entry was made accumulate, up to the last of them. -/
theorem accumulate_sinceCreation (h : turns store inputs = earlier ++ here :: later) :
    ∃ past since, earlier = past ++ since ∧
      sinceCreation (Transaction.cacheKeyOf messageId) (earlier ++ [here]) = since ++ [here] ∧
      Accumulate (since ++ [here]) := by
  obtain ⟨head, tail, hhead⟩ : ∃ head tail, earlier ++ [here] = head :: tail :=
    List.exists_cons_of_ne_nil (by simp)
  have hmem : head ∈ earlier ++ [here] := by
    rw [hhead]
    exact List.mem_cons_self
  have hfresh := hr.fresh_head h head (by rw [hhead]; rfl)
  obtain ⟨past, first, rest, hpast, hsince, hfirst, hrest⟩ :=
    sinceCreation_spec ⟨head, hmem, hfresh⟩
  obtain ⟨since, last, hlast⟩ :=
    (List.eq_nil_or_concat' (first :: rest)).resolve_left (List.cons_ne_nil _ _)
  rw [hsince, hlast, ← List.append_assoc] at hpast
  obtain ⟨rfl, hlast'⟩ := List.append_inj' hpast rfl
  obtain rfl := List.head_eq_of_cons_eq hlast'
  rw [List.append_assoc] at h
  refine ⟨past, since, rfl, by rw [hsince, hlast], ?_⟩
  apply hr.accumulate h _ (hr.keeps_of_found h hlast.symm hrest)
  intro t ht
  rw [← hlast, List.head?_cons, Option.mem_some_iff] at ht
  rw [← ht]
  exact hfirst

/-- What has left when the entry of a transaction is deleted. A typology that waits for anything has
left since the entry was made exactly when one of its own rules, in its version, has been reported
since by the time all of its rule ids have been. If the map lists none of its rules in a version it
does not wait for, it has left. -/
theorem handedOver_when_cleanedUp (hr : Reporting map messageId store inputs)
    (h : turns store inputs = earlier ++ here :: later)
    (hc : here.pass.outcome.cleanedUp = true) (id cfg : String)
    (hne : map.requiredRuleIds id cfg ≠ []) :
    ((∃ t ∈ sinceCreation (Transaction.cacheKeyOf messageId) (earlier ++ [here]),
        (id, cfg) ∈ t.pass.handedOver) ↔
      ∃ before t after,
        sinceCreation (Transaction.cacheKeyOf messageId) (earlier ++ [here]) =
          before ++ t :: after ∧
        map.WaitsFor (id, cfg) t.ruleId t.event.ruleResult.cfg ∧
        map.requiredRuleIds id cfg ⊆ (before ++ [t]).map Turn.ruleId) ∧
    (map.WaitsForEveryVersion (id, cfg) →
      ∃ t ∈ sinceCreation (Transaction.cacheKeyOf messageId) (earlier ++ [here]),
        (id, cfg) ∈ t.pass.handedOver) := by
  obtain ⟨past, since, rfl, hsince, ha⟩ := hr.accumulate_sinceCreation h
  have hrun : turns store inputs = past ++ ((since ++ [here]) ++ later) := by
    rw [h, List.append_assoc, List.append_assoc, List.singleton_append]
  rw [hsince]
  refine ⟨⟨?_, ?_⟩, ?_⟩
  · rintro ⟨t, ht, hk⟩
    obtain ⟨before, after, hsplit⟩ := List.append_of_mem ht
    obtain ⟨hw, hs⟩ := (hr.mem_handedOver_turn (turns_split hrun hsplit)).mp hk
    exact ⟨before, t, after, hsplit, hw, (ha.stores_iff hsplit).mp hs⟩
  · rintro ⟨before, t, after, hsplit, hw, hs⟩
    refine ⟨t, by rw [hsplit]; simp, ?_⟩
    rw [hr.mem_handedOver_turn (turns_split hrun hsplit)]
    exact ⟨hw, (ha.stores_iff hsplit).mpr hs⟩
  · intro hv
    have hs : here.stores (map.requiredRuleIds id cfg) = true := by
      apply Turn.stores_of_complete
      rw [← hr.cleanedUp_turn h, hc]
    have hmem : ∃ t ∈ since ++ [here], t.stores (map.requiredRuleIds id cfg) = true :=
      ⟨here, by simp, hs⟩
    obtain ⟨before, t, after, hsplit, hs, he⟩ := exists_first_stores hmem
    exact ⟨t, by rw [hsplit]; simp, hr.handedOver_of_first hrun hsplit hv hne ha hs he⟩

private def twoVersions : NetworkMap :=
  .ofTypologies [⟨"T", "1", [⟨"A", "1"⟩]⟩, ⟨"U", "1", [⟨"A", "2"⟩]⟩,
    ⟨"V", "1", [⟨"A", "1"⟩, ⟨"A", "2"⟩]⟩]

private def oneVersionReported : List (Services × Event) :=
  [(Services.plain, .ofRule twoVersions "m" "A" "1")]

private def onlyTurn : Turn := ⟨Services.plain, .ofRule twoVersions "m" "A" "1", {}⟩

private theorem reporting_oneVersionReported :
    Reporting twoVersions "m" {} oneVersionReported := by
  constructor
  · rfl
  all_goals decide

/-- A rule in two versions, of which one is reported: the entry is deleted, and the typology that
waits for both versions has left. -/
theorem left_both_versions :
    Reporting twoVersions "m" {} oneVersionReported ∧
      turns {} oneVersionReported = [onlyTurn] ∧ onlyTurn.pass.outcome.cleanedUp = true ∧
      twoVersions.requiredRuleIds "V" "1" ≠ [] ∧ twoVersions.WaitsForEveryVersion ("V", "1") ∧
      ∃ t ∈ sinceCreation "TP_m" [onlyTurn], ("V", "1") ∈ t.pass.handedOver := by
  have h : turns {} oneVersionReported = [] ++ onlyTurn :: [] := rfl
  have hc : onlyTurn.pass.outcome.cleanedUp = true := by decide
  have hne : twoVersions.requiredRuleIds "V" "1" ≠ [] := by decide
  have hv : twoVersions.WaitsForEveryVersion ("V", "1") := by decide
  exact ⟨reporting_oneVersionReported, h, hc, hne, hv,
    (handedOver_when_cleanedUp reporting_oneVersionReported h hc "V" "1" hne).2 hv⟩

/-- The entry is deleted, and the typology that waits for the other version has never left. -/
theorem lost_other_version :
    Reporting twoVersions "m" {} oneVersionReported ∧
      turns {} oneVersionReported = [onlyTurn] ∧ onlyTurn.pass.outcome.cleanedUp = true ∧
      twoVersions.requiredRuleIds "U" "1" ≠ [] ∧
      ¬ ∃ t ∈ sinceCreation "TP_m" [onlyTurn], ("U", "1") ∈ t.pass.handedOver :=
  ⟨reporting_oneVersionReported, rfl, by decide, by decide, by decide⟩

end Reporting
end RiskTypology
