import RiskTypology.Proofs.Run.Accumulation

/-!
# Timing

When a run of reports cleans up and when typologies leave, up to the turn by which every rule of the
map is stored, for maps that list no rule in two versions.
-/

namespace RiskTypology.Reporting

variable {map : NetworkMap} {messageId : String} {store : Store}
  {inputs : List (Services × Event)} (hr : Reporting map messageId store inputs)
  {earlier later : List Turn} {here : Turn}
  (h : turns store inputs = earlier ++ here :: later)
  (he : ∀ t ∈ earlier, t.stores map.allRuleIds = false)

include h in
private theorem turns_eq_concat : turns store inputs = [] ++ ((earlier ++ [here]) ++ later) := by
  rw [h, List.nil_append, List.append_assoc, List.singleton_append]

include hr h he in
private theorem keeps_until_complete : ∀ t ∈ earlier, t.pass.outcome.cleanedUp = false := by
  intro t ht
  obtain ⟨before, after, rfl⟩ := List.append_of_mem ht
  rw [List.append_assoc, List.cons_append] at h
  rw [hr.cleanedUp_turn h]
  exact he t ht

include hr h he in
private theorem accumulate_until_complete : Accumulate (earlier ++ [here]) := by
  have hrun : turns store inputs = [] ++ (earlier ++ here :: later) := h
  exact hr.accumulate hrun (hr.fresh_head h) (hr.keeps_until_complete h he)

include hr in
/-- A typology whose rule ids are all stored at some turn has left once, if no rule is reported
twice. -/
theorem count_handedOver (hv : map.SingleVersion) {since rest : List Turn}
    {key : String × String} (hne : map.requiredRuleIds key.1 key.2 ≠ [])
    (h : turns store inputs = [] ++ (since ++ rest)) (ha : Accumulate since)
    (hnodup : (since.map Turn.ruleId).Nodup)
    (hs : ∃ t ∈ since, t.stores (map.requiredRuleIds key.1 key.2) = true) :
    (since.flatMap (·.pass.handedOver)).count key = 1 := by
  obtain ⟨before, first, after, hsplit, hs, he⟩ := exists_first_stores hs
  obtain ⟨hk, hnone⟩ :=
    (hr.first_handedOver_iff h hsplit (hv.waitsForEveryVersion key) hne ha).mpr ⟨hs, he⟩
  have hbefore : (before.flatMap (·.pass.handedOver)).count key = 0 := by
    rw [List.count_eq_zero, List.mem_flatMap]
    rintro ⟨t, ht, hkt⟩
    exact hnone t ht hkt
  have hfirst : first.pass.handedOver.count key = 1 := by
    have hnd : first.pass.handedOver.Nodup :=
      Pass.nodup_handedOver (hr.isAborted_turn (turns_split h hsplit))
    rw [hnd.count, if_pos hk]
  -- What the typology waits for has been reported, and is not reported again.
  have hafter : (after.flatMap (·.pass.handedOver)).count key = 0 := by
    rw [List.count_eq_zero, List.mem_flatMap]
    rintro ⟨t, ht, hkt⟩
    obtain ⟨between, last, rfl⟩ := List.append_of_mem ht
    have hlater : since = (before ++ first :: between) ++ t :: last := by
      rw [hsplit, List.append_assoc, List.cons_append]
    have hw := ((hr.mem_handedOver_turn (turns_split h hlater)).mp hkt).1
    have hold := (ha.stores_iff hsplit).mp hs hw.mem_requiredRuleIds
    rw [hsplit, ← List.singleton_append, ← List.append_assoc, List.map_append,
      List.nodup_append] at hnodup
    exact hnodup.2.2 _ hold _ (List.mem_map_of_mem ht) rfl
  rw [hsplit, List.flatMap_append, List.flatMap_cons, List.count_append, List.count_append,
    hbefore, hfirst, hafter]

/-- The turns of a run of reports on a map that lists no rule in two versions, up to the first by
which every rule of the map is stored. Each gathers what has been reported so far. Only that turn
cleans up, and then there is no entry for the transaction. A typology that waits for anything leaves
for the first time with the turn by which the last of its rule ids is stored, and leaves exactly
once if no rule is reported twice. -/
theorem timing_until_complete (hr : Reporting map messageId store inputs)
    (hv : map.SingleVersion) (h : turns store inputs = earlier ++ here :: later)
    (he : ∀ t ∈ earlier, t.stores map.allRuleIds = false) :
    here.results.map (·.id) = (earlier ++ [here]).map Turn.ruleId ∧
    (∀ t ∈ earlier, t.pass.outcome.cleanedUp = false) ∧
    here.pass.outcome.cleanedUp = here.stores map.allRuleIds ∧
    (here.stores map.allRuleIds = true →
      here.pass.store.contains (Transaction.cacheKeyOf messageId) = false) ∧
    (∀ id cfg, map.requiredRuleIds id cfg ≠ [] →
      (((id, cfg) ∈ here.pass.handedOver ∧ ∀ t ∈ earlier, (id, cfg) ∉ t.pass.handedOver) ↔
        here.stores (map.requiredRuleIds id cfg) = true ∧
          ∀ t ∈ earlier, t.stores (map.requiredRuleIds id cfg) = false)) ∧
    (((earlier ++ [here]).map Turn.ruleId).Nodup → here.stores map.allRuleIds = true →
      ∀ id cfg, map.requiredRuleIds id cfg ≠ [] →
        ((earlier ++ [here]).flatMap (·.pass.handedOver)).count (id, cfg) = 1) := by
  have ha := hr.accumulate_until_complete h he
  have hc := hr.cleanedUp_turn h
  have hrun := turns_eq_concat h
  refine ⟨ha _ _ _ rfl, hr.keeps_until_complete h he, hc, ?_, ?_, ?_⟩
  · intro hs
    exact hr.contains_of_cleanedUp h (hc.trans hs)
  · intro id cfg hne
    exact hr.first_handedOver_iff hrun rfl (hv.waitsForEveryVersion (id, cfg)) hne ha
  · intro hnodup hs id cfg hne
    exact hr.count_handedOver hv hne hrun ha hnodup
      ⟨here, by simp, Turn.stores_of_complete hs id cfg⟩

private def oneOverTwo : NetworkMap :=
  .ofTypologies [⟨"T", "1", [⟨"A", "1"⟩]⟩, ⟨"U", "1", [⟨"A", "1"⟩, ⟨"B", "1"⟩]⟩]

private def bothReported : List (Services × Event) :=
  [(Services.plain, .ofRule oneOverTwo "m" "A" "1"),
    (Services.plain, .ofRule oneOverTwo "m" "B" "1")]

private def firstOfBoth : Turn := ⟨Services.plain, .ofRule oneOverTwo "m" "A" "1", {}⟩

private def secondOfBoth : Turn :=
  ⟨Services.plain, .ofRule oneOverTwo "m" "B" "1", firstOfBoth.pass.store⟩

/-- Two rules reported in order: the turn of the second cleans up, and the typology that waits for
the first alone leaves only once. -/
theorem timing_both_reported :
    Reporting oneOverTwo "m" {} bothReported ∧ oneOverTwo.SingleVersion ∧
      turns {} bothReported = [firstOfBoth, secondOfBoth] ∧
      firstOfBoth.stores oneOverTwo.allRuleIds = false ∧
      secondOfBoth.pass.outcome.cleanedUp = true ∧
      ("U", "1") ∈ secondOfBoth.pass.handedOver ∧
      ([firstOfBoth, secondOfBoth].flatMap (·.pass.handedOver)).count ("T", "1") = 1 := by
  have hr : Reporting oneOverTwo "m" {} bothReported := by
    constructor
    · rfl
    all_goals decide
  have hv : oneOverTwo.SingleVersion := by decide
  have h : turns {} bothReported = [firstOfBoth] ++ secondOfBoth :: [] := rfl
  have he : ∀ t ∈ [firstOfBoth], t.stores oneOverTwo.allRuleIds = false := by
    decide
  obtain ⟨-, -, hc, -, hfirst, honce⟩ := timing_until_complete hr hv h he
  refine ⟨hr, hv, h, he firstOfBoth (by simp), ?_, ?_, ?_⟩
  · rw [hc]
    decide
  · exact ((hfirst "U" "1" (by decide)).mpr (by decide)).1
  · exact honce (by decide) (by decide) "T" "1" (by decide)

end RiskTypology.Reporting
