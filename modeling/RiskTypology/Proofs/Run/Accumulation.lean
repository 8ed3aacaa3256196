import RiskTypology.Proofs.Run.Turns

/-!
# Accumulation

What turns store between the making of an entry and its deletion: what they have reported. The first
turn by which some rule ids are stored reports one of them, so a typology that waits for every
version of its rules leaves with the first turn by which all of its rule ids are stored.
-/

namespace RiskTypology

/-- Turns each of which gathers what they have reported so far. -/
def Accumulate (since : List Turn) : Prop :=
  ∀ earlier here later, since = earlier ++ here :: later →
    here.results.map (·.id) = (earlier ++ [here]).map Turn.ruleId

/-- When every rule id of the map is stored, every one a typology waits for is. -/
theorem Turn.stores_of_complete {map : NetworkMap} {t : Turn}
    (hs : t.stores map.allRuleIds = true) (id cfg : String) :
    t.stores (map.requiredRuleIds id cfg) = true := by
  rw [Turn.stores, RuleResult.haveAll_iff] at hs ⊢
  intro ruleId hid
  exact hs ruleId (map.requiredRuleIds_subset id cfg hid)

/-- Of the turns that have a property there is a first. -/
theorem exists_first {p : Turn → Bool} {since : List Turn} (h : ∃ t ∈ since, p t = true) :
    ∃ earlier here later, since = earlier ++ here :: later ∧ p here = true ∧
      ∀ t ∈ earlier, p t = false := by
  cases hf : since.find? p with
  | none =>
    obtain ⟨t, ht, hp⟩ := h
    exact absurd hp (List.find?_eq_none.mp hf t ht)
  | some here =>
    obtain ⟨hp, earlier, later, rfl, he⟩ := List.find?_eq_some_iff_append.mp hf
    exact ⟨earlier, here, later, rfl, hp, fun t ht ↦ by simpa using he t ht⟩

/-- Of the turns by which some rule ids are stored there is a first. -/
theorem exists_first_stores {since : List Turn} {ids : List String}
    (h : ∃ t ∈ since, t.stores ids = true) :
    ∃ earlier here later, since = earlier ++ here :: later ∧ here.stores ids = true ∧
      ∀ t ∈ earlier, t.stores ids = false := exists_first h

namespace Accumulate

variable {since earlier later : List Turn} {here : Turn} {ids : List String}

/-- Rule ids are stored by a turn once each of them has been reported. -/
theorem stores_iff (ha : Accumulate since) (h : since = earlier ++ here :: later) :
    here.stores ids = true ↔ ids ⊆ (earlier ++ [here]).map Turn.ruleId := by
  rw [Turn.stores, RuleResult.haveAll_iff_subset, ← ha _ _ _ h, RuleResult.distinctIds]
  constructor
  · intro hs id hid
    exact List.mem_eraseDups.mp (hs hid)
  · intro hs id hid
    exact List.mem_eraseDups.mpr (hs hid)

/-- The first turn by which some rule ids are stored reports one of them. -/
theorem ruleId_mem_of_first (ha : Accumulate since) (h : since = earlier ++ here :: later)
    (hne : ids ≠ []) (hs : here.stores ids = true) (he : ∀ t ∈ earlier, t.stores ids = false) :
    here.ruleId ∈ ids := by
  by_contra hn
  -- Otherwise all of them have been reported before, and the turn before stores them.
  have hsub : ids ⊆ earlier.map Turn.ruleId := by
    intro id hid
    have hm := (ha.stores_iff h).mp hs hid
    rw [List.map_append, List.mem_append, List.map_singleton, List.mem_singleton] at hm
    obtain hm | rfl := hm
    · exact hm
    · exact absurd hid hn
  cases earlier using List.reverseRecOn with
  | nil => exact hne (List.eq_nil_of_subset_nil hsub)
  | append_singleton earlier last =>
    rw [List.append_assoc, List.singleton_append] at h
    have hlast := (ha.stores_iff h).mpr hsub
    rw [he last (by simp)] at hlast
    cases hlast

end Accumulate

namespace Reporting

variable {map : NetworkMap} {messageId : String} {store : Store}
  {inputs : List (Services × Event)} (hr : Reporting map messageId store inputs)
  {past since earlier later rest : List Turn} {here : Turn} {key : String × String}

include hr in
/-- The first turn finds no entry for the transaction. -/
theorem fresh_head (h : turns store inputs = earlier ++ here :: later) :
    ∀ t ∈ (earlier ++ [here]).head?,
      t.before.contains (Transaction.cacheKeyOf messageId) = false := by
  intro t ht
  rw [Option.mem_def, List.head?_eq_some_iff] at ht
  obtain ⟨rest, hrest⟩ := ht
  rw [← List.singleton_append, ← List.append_assoc, hrest] at h
  rw [before_first h]
  exact hr.fresh

include hr in
/-- Turns accumulate from one that finds no entry for as long as none cleans up. -/
theorem accumulate (h : turns store inputs = past ++ (since ++ here :: later))
    (hfirst : ∀ t ∈ (since ++ [here]).head?,
      t.before.contains (Transaction.cacheKeyOf messageId) = false)
    (hkeeps : ∀ t ∈ since, t.pass.outcome.cleanedUp = false) :
    Accumulate (since ++ [here]) := by
  intro before t after hsplit
  have hmem : ∀ u ∈ before, u ∈ since := by
    intro u hu
    cases after using List.reverseRecOn with
    | nil =>
      obtain ⟨rfl, -⟩ := List.append_inj' hsplit rfl
      exact hu
    | append_singleton after last =>
      rw [← List.cons_append, ← List.append_assoc] at hsplit
      obtain ⟨rfl, -⟩ := List.append_inj' hsplit rfl
      exact List.mem_append_left _ hu
  rw [← List.singleton_append, ← List.append_assoc since, hsplit, List.append_assoc,
    List.cons_append] at h
  rw [hr.results_since h _ fun u hu ↦ hkeeps u (hmem u hu), List.map_map]
  · rfl
  · rw [hsplit] at hfirst
    cases before with
    | nil => exact hfirst
    | cons first rest => exact hfirst

section

variable (h : turns store inputs = past ++ (since ++ rest))
  (hsplit : since = earlier ++ here :: later)

include h hsplit in
/-- A turn among some turns of a run is a turn of the run. -/
theorem turns_split : turns store inputs = (past ++ earlier) ++ here :: (later ++ rest) := by
  rw [h, hsplit, List.append_assoc, List.append_assoc, List.cons_append]

include hr h hsplit in
/-- What a typology that leaves waits for is stored. -/
theorem stores_of_handedOver (hk : key ∈ here.pass.handedOver) :
    here.stores (map.requiredRuleIds key.1 key.2) = true :=
  ((hr.mem_handedOver_turn (turns_split h hsplit)).mp hk).2

variable (hv : map.WaitsForEveryVersion key) (hne : map.requiredRuleIds key.1 key.2 ≠ [])
  (ha : Accumulate since)

include hr h hsplit hv hne ha in
/-- A typology that waits for every version of its rules leaves with the first turn by which all of
its rule ids are stored, since that turn reports one of them. -/
theorem handedOver_of_first (hs : here.stores (map.requiredRuleIds key.1 key.2) = true)
    (he : ∀ t ∈ earlier, t.stores (map.requiredRuleIds key.1 key.2) = false) :
    key ∈ here.pass.handedOver := by
  have hrun := turns_split h hsplit
  have hid : here.ruleId ∈ map.requiredRuleIds key.1 key.2 :=
    ha.ruleId_mem_of_first hsplit hne hs he
  obtain ⟨t, ht, rule, hrule, hruleId, hcfg⟩ := hr.listed _ (mem_inputs (mem_turns hrun))
  have hw := hv t ht rule hrule (by rw [hruleId]; exact hid)
  rw [hruleId, hcfg] at hw
  exact (hr.mem_handedOver_turn hrun).mpr ⟨hw, hs⟩

include hr h hsplit hv hne ha in
/-- A typology that waits for every version of its rules leaves for the first time with the first
turn by which all of its rule ids are stored. -/
theorem first_handedOver_iff :
    (key ∈ here.pass.handedOver ∧ ∀ t ∈ earlier, key ∉ t.pass.handedOver) ↔
      here.stores (map.requiredRuleIds key.1 key.2) = true ∧
        ∀ t ∈ earlier, t.stores (map.requiredRuleIds key.1 key.2) = false := by
  constructor
  · rintro ⟨hk, hnone⟩
    refine ⟨hr.stores_of_handedOver h hsplit hk, ?_⟩
    by_contra hn
    obtain ⟨t, ht, hs⟩ : ∃ t ∈ earlier, t.stores (map.requiredRuleIds key.1 key.2) = true := by
      simpa using hn
    obtain ⟨before, first, after, rfl, hs, he⟩ := exists_first_stores ⟨t, ht, hs⟩
    rw [List.append_assoc, List.cons_append] at hsplit
    exact hnone first (by simp) (hr.handedOver_of_first h hsplit hv hne ha hs he)
  · rintro ⟨hs, he⟩
    refine ⟨hr.handedOver_of_first h hsplit hv hne ha hs he, ?_⟩
    intro t ht hk
    obtain ⟨before, after, rfl⟩ := List.append_of_mem ht
    rw [List.append_assoc, List.cons_append] at hsplit
    have hs := hr.stores_of_handedOver h hsplit hk
    rw [he t ht] at hs
    cases hs

end

end Reporting
end RiskTypology
