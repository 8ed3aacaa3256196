import Mathlib.Data.List.Nodup
import RiskTypology.Proofs.Run.Timing

/-!
# The order of reports

Runs that report the same rule results, each rule once, in different orders. The order decides in
which turn a typology leaves. It does not decide what is gathered for the typology by then: all that
it waits for has been reported, and is not reported again. So the runs hand out the same assessments
as long as the results are consistent.
-/

namespace RiskTypology

/-- The rule results of a run as the store keeps them, in the order in which they are reported. -/
def keptResults (inputs : List (Services × Event)) : List RuleResult :=
  inputs.map (·.2.ruleResult.kept)

/-- The turns of a run report its rule ids. -/
theorem map_ruleId_turns (store : Store) (inputs : List (Services × Event)) :
    (turns store inputs).map Turn.ruleId = inputs.map (·.2.ruleResult.id) := by
  have h := congrArg (List.map (·.2.ruleResult.id)) (map_input_turns store inputs)
  rwa [List.map_map] at h

/-- The turns of a run report its rule results. -/
theorem map_kept_turns (store : Store) (inputs : List (Services × Event)) :
    (turns store inputs).map (·.event.ruleResult.kept) = keptResults inputs := by
  have h := congrArg keptResults (map_input_turns store inputs)
  rwa [keptResults, List.map_map] at h

namespace Reporting

variable {map : NetworkMap} {messageId : String} {store : Store}
  {inputs : List (Services × Event)} (hr : Reporting map messageId store inputs)
  (hnodup : (inputs.map (·.2.ruleResult.id)).Nodup)
  {earlier later : List Turn} {here : Turn} {key : String × String}

include hnodup in
private theorem not_mem_ruleIds_later (h : turns store inputs = earlier ++ here :: later)
    {t : Turn} (ht : t ∈ later) : t.ruleId ∉ (earlier ++ [here]).map Turn.ruleId := by
  intro hmem
  rw [← map_ruleId_turns store, h, ← List.singleton_append, ← List.append_assoc, List.map_append,
    List.nodup_append] at hnodup
  exact hnodup.2.2 _ hmem _ (List.mem_map_of_mem ht) rfl

include hr hnodup in
/-- As long as rules are to be reported that have not been, no turn cleans up. -/
theorem keeps_of_nodup (h : turns store inputs = earlier ++ here :: later) :
    ∀ t ∈ earlier, t.pass.outcome.cleanedUp = false := by
  by_contra hn
  obtain ⟨t, ht, hc⟩ : ∃ t ∈ earlier, t.pass.outcome.cleanedUp = true := by simpa using hn
  obtain ⟨before, first, after, rfl, hfirst, hb⟩ :=
    exists_first (p := (·.pass.outcome.cleanedUp)) ⟨t, ht, hc⟩
  have hlast : here.ruleId ∈ map.allRuleIds := hr.ruleId_mem (mem_turns h)
  rw [List.append_assoc, List.cons_append] at h
  have hrun : turns store inputs = [] ++ (before ++ first :: (after ++ here :: later)) := h
  have ha : Accumulate (before ++ [first]) := hr.accumulate hrun (hr.fresh_head h) hb
  rw [hr.cleanedUp_turn h] at hfirst
  exact not_mem_ruleIds_later hnodup h (by simp) ((ha.stores_iff rfl).mp hfirst hlast)

include hr hnodup in
/-- While no rule is reported twice every turn gathers everything reported so far. -/
theorem results_of_nodup (h : turns store inputs = earlier ++ here :: later) :
    here.results = (earlier ++ [here]).map (·.event.ruleResult.kept) := by
  have hrun : turns store inputs = [] ++ (earlier ++ here :: later) := h
  exact hr.results_since hrun (hr.fresh_head h) (hr.keeps_of_nodup hnodup h)

include hr hnodup in
/-- A run that reports no rule twice accumulates. -/
theorem accumulate_of_nodup : Accumulate (turns store inputs) := by
  intro earlier here later h
  rw [hr.results_of_nodup hnodup h, List.map_map]
  rfl

include hr hnodup in
/-- When a typology leaves, all that the run ever reports for it has been gathered. -/
theorem reported_of_handedOver (h : turns store inputs = earlier ++ here :: later)
    (hk : key ∈ here.pass.handedOver) :
    reported map here.results key = reported map (keptResults inputs) key := by
  have hs := ((hr.mem_handedOver_turn h).mp hk).2
  have hsub := ((hr.accumulate_of_nodup hnodup).stores_iff h).mp hs
  have hlater :
      relevant map (later.map (·.event.ruleResult.kept)) key.1 key.2 = [] := by
    rw [relevant, List.filter_eq_nil_iff]
    intro r hmem hreq
    obtain ⟨t, ht, rfl⟩ := List.mem_map.mp hmem
    exact not_mem_ruleIds_later hnodup h ht (hsub (List.contains_iff_mem.mp hreq))
  have hall : keptResults inputs = here.results ++ later.map (·.event.ruleResult.kept) := by
    rw [← map_kept_turns store, h, hr.results_of_nodup hnodup h]
    simp
  rw [reported, reported, hall]
  simp only [relevant, List.filter_append] at hlater ⊢
  rw [hlater, List.append_nil]

include hr in
/-- Everything a turn sends carries what its event has for all payloads in common. -/
theorem carried_turn {t : Turn} (ht : t ∈ turns store inputs) :
    ∀ s ∈ Effect.sends t.pass.effects, t.event.context.Carried s := by
  obtain ⟨earlier, later, h⟩ := List.append_of_mem ht
  exact Pass.carried_run (hr.isAborted_turn h)

section Leaving

variable (hv : map.SingleVersion)

include hr hnodup hv in
private theorem count_of_subset (hne : map.requiredRuleIds key.1 key.2 ≠ [])
    (hsub : map.requiredRuleIds key.1 key.2 ⊆ inputs.map (·.2.ruleResult.id)) :
    ((turns store inputs).flatMap (·.pass.handedOver)).count key = 1 := by
  have ha := hr.accumulate_of_nodup hnodup
  rw [← map_ruleId_turns store] at hnodup hsub
  have hrun : turns store inputs = [] ++ (turns store inputs ++ []) := (List.append_nil _).symm
  apply hr.count_handedOver hv hne hrun ha hnodup
  -- By the last turn everything is stored.
  cases hl : turns store inputs using List.reverseRecOn with
  | nil =>
    rw [hl] at hsub
    exact absurd (List.eq_nil_of_subset_nil hsub) hne
  | append_singleton earlier here =>
    rw [hl] at hsub
    exact ⟨here, by simp, (ha.stores_iff hl).mpr hsub⟩

include hr hnodup hv in
/-- The typologies that leave are those that wait for something and are reported all of it. -/
theorem mem_flatMap_handedOver :
    key ∈ (turns store inputs).flatMap (·.pass.handedOver) ↔
      map.requiredRuleIds key.1 key.2 ≠ [] ∧
        map.requiredRuleIds key.1 key.2 ⊆ inputs.map (·.2.ruleResult.id) := by
  constructor
  · intro hk
    obtain ⟨t, ht, hk⟩ := List.mem_flatMap.mp hk
    obtain ⟨earlier, later, h⟩ := List.append_of_mem ht
    obtain ⟨hw, hs⟩ := (hr.mem_handedOver_turn h).mp hk
    have hsub := ((hr.accumulate_of_nodup hnodup).stores_iff h).mp hs
    refine ⟨List.ne_nil_of_mem hw.mem_requiredRuleIds, ?_⟩
    rw [← map_ruleId_turns store, h, ← List.singleton_append, ← List.append_assoc, List.map_append]
    exact fun id hid ↦ List.mem_append_left _ (hsub hid)
  · rintro ⟨hne, hsub⟩
    rw [← List.count_pos_iff, hr.count_of_subset hnodup hv hne hsub]
    exact Nat.one_pos

include hr hnodup hv in
/-- No typology leaves twice. -/
theorem nodup_flatMap_handedOver :
    ((turns store inputs).flatMap (·.pass.handedOver)).Nodup := by
  rw [List.nodup_iff_count_eq_one]
  intro key hk
  obtain ⟨hne, hsub⟩ := (hr.mem_flatMap_handedOver hnodup hv).mp hk
  exact hr.count_of_subset hnodup hv hne hsub

include hr hnodup hv in
/-- A typology leaves once if it waits for something and is reported all of it, otherwise not. -/
theorem count_flatMap_handedOver :
    ((turns store inputs).flatMap (·.pass.handedOver)).count key =
      if map.requiredRuleIds key.1 key.2 ≠ [] ∧
        ∀ id ∈ map.requiredRuleIds key.1 key.2, id ∈ inputs.map (·.2.ruleResult.id)
      then 1 else 0 := by
  split
  · next h => exact hr.count_of_subset hnodup hv h.1 h.2
  · next h =>
    rw [List.count_eq_zero]
    intro hk
    exact h ((hr.mem_flatMap_handedOver hnodup hv).mp hk)

end Leaving

section Assessing

variable {define : String → String → Except String (Option Definition)} {channel : String}
  (hroutes : ∀ input ∈ inputs,
    input.1.routes.define = define ∧ input.1.routes.interdictionChannel = channel)

include hr hnodup hroutes in
/-- The assessments of a run are those of the typologies that leave, by all that it reports. -/
theorem flatMap_assessments :
    (turns store inputs).flatMap (·.pass.assessments) =
      ((turns store inputs).flatMap (·.pass.handedOver)).map fun key ↦
        assess define (reported map (keptResults inputs) key) := by
  rw [List.map_flatMap]
  apply List.flatMap_congr
  intro t ht
  obtain ⟨earlier, later, h⟩ := List.append_of_mem ht
  have hin := mem_inputs ht
  rw [Turn.pass, Pass.assessments_run (hr.isAborted_turn h), (hroutes _ hin).1, hr.map_eq _ hin]
  apply List.map_congr_left
  intro key hk
  exact congrArg (assess define) (hr.reported_of_handedOver hnodup h hk)

include hr hnodup hroutes in
/-- The assessments of a run on the interdiction channel are those of the typologies that leave and
interdict, by all that it reports. -/
theorem flatMap_assessmentsFor :
    (turns store inputs).flatMap (·.pass.assessmentsFor channel) =
      (((turns store inputs).flatMap (·.pass.handedOver)).filter fun key ↦
        interdicts define (reported map (keptResults inputs) key)).map fun key ↦
          assess define (reported map (keptResults inputs) key) := by
  rw [List.filter_flatMap, List.map_flatMap]
  apply List.flatMap_congr
  intro t ht
  obtain ⟨earlier, later, h⟩ := List.append_of_mem ht
  have hin := mem_inputs ht
  rw [← (hroutes _ hin).2, Turn.pass, Pass.assessmentsFor_run (hr.isAborted_turn h),
    (hroutes _ hin).1, hr.map_eq _ hin]
  have hreported : ∀ key ∈ t.pass.handedOver,
      reported map (Pass.gathered t.services t.before t.event) key =
        reported map (keptResults inputs) key :=
    fun key hk ↦ hr.reported_of_handedOver hnodup h hk
  have hfilter : (t.pass.handedOver.filter fun key ↦
      interdicts define (reported map (Pass.gathered t.services t.before t.event) key)) =
        t.pass.handedOver.filter fun key ↦
          interdicts define (reported map (keptResults inputs) key) :=
    List.filter_congr fun key hk ↦ by rw [hreported key hk]
  rw [← Turn.pass, hfilter]
  apply List.map_congr_left
  intro key hk
  rw [hreported key (List.mem_filter.mp hk).1]

end Assessing

section Orders

variable {store' : Store} {inputs' : List (Services × Event)}
  (hr' : Reporting map messageId store' inputs') (hv : map.SingleVersion)
  (hperm : (inputs.map (·.2.ruleResult)).Perm (inputs'.map (·.2.ruleResult)))

include hperm in
private theorem ruleIds_perm :
    (inputs.map (·.2.ruleResult.id)).Perm (inputs'.map (·.2.ruleResult.id)) := by
  have h := hperm.map RuleResult.id
  rwa [List.map_map, List.map_map] at h

include hperm in
private theorem keptResults_perm : (keptResults inputs).Perm (keptResults inputs') := by
  have h := hperm.map RuleResult.kept
  rwa [List.map_map, List.map_map] at h

include hr hr' hnodup hv hperm in
/-- In whatever order the rules are reported, the same typologies leave. -/
theorem handedOver_perm :
    ((turns store inputs).flatMap (·.pass.handedOver)).Perm
      ((turns store' inputs').flatMap (·.pass.handedOver)) := by
  have hids := ruleIds_perm hperm
  have hnodup' := hids.nodup_iff.mp hnodup
  rw [List.perm_ext_iff_of_nodup (hr.nodup_flatMap_handedOver hnodup hv)
    (hr'.nodup_flatMap_handedOver hnodup' hv)]
  intro key
  rw [hr.mem_flatMap_handedOver hnodup hv, hr'.mem_flatMap_handedOver hnodup' hv]
  exact and_congr_right fun _ ↦
    ⟨fun h ↦ List.Subset.trans h hids.subset, fun h ↦ List.Subset.trans h hids.symm.subset⟩

variable {define : String → String → Except String (Option Definition)}
  (hc : ∀ id cfg d, define id cfg = .ok (some d) →
    Consistent d.rules (inputs.map (·.2.ruleResult)))

variable (map) in
include hperm hc in
private theorem assess_reported_perm (key : String × String) :
    assess define (reported map (keptResults inputs) key) =
        assess define (reported map (keptResults inputs') key) ∧
      interdicts define (reported map (keptResults inputs) key) =
        interdicts define (reported map (keptResults inputs') key) := by
  have hrelevant := (keptResults_perm hperm).filter fun r ↦
    (map.requiredRuleIds key.1 key.2).contains r.id
  have hconsistent : ∀ d, define key.1 key.2 = .ok (some d) →
      Consistent d.rules (relevant map (keptResults inputs) key.1 key.2) := by
    intro d hd
    apply (hc key.1 key.2 d hd).of_outcomes
    intro o ho
    obtain ⟨r, hmem, rfl⟩ := List.mem_map.mp ho
    obtain ⟨input, hin, rfl⟩ := List.mem_map.mp (List.mem_filter.mp hmem).1
    exact List.mem_map.mpr ⟨input.2.ruleResult, List.mem_map_of_mem hin, rfl⟩
  exact ⟨assess_perm hconsistent hrelevant, interdicts_perm hconsistent hrelevant⟩

/-- On a map that lists no rule in two versions, two runs that report the same rule results in any
two orders, each rule once, hand the same assessments to the default channel and the same to the
interdiction channel, as long as no two of the results claim different weights for one term. The
typologies that leave are those that wait for something and are reported all of it, each once. For
the rest a payload carries what its event brings, the transaction in full or cut down. -/
theorem assessments_in_any_order (hr : Reporting map messageId store inputs)
    (hr' : Reporting map messageId store' inputs') (hv : map.SingleVersion)
    {channel : String}
    (hroutes : ∀ input ∈ inputs ++ inputs',
      input.1.routes.define = define ∧ input.1.routes.interdictionChannel = channel)
    (hnodup : (inputs.map (·.2.ruleResult.id)).Nodup)
    (hperm : (inputs.map (·.2.ruleResult)).Perm (inputs'.map (·.2.ruleResult)))
    (hc : ∀ id cfg d, define id cfg = .ok (some d) →
      Consistent d.rules (inputs.map (·.2.ruleResult))) :
    ((turns store inputs).flatMap (·.pass.assessments)).Perm
        ((turns store' inputs').flatMap (·.pass.assessments)) ∧
      ((turns store inputs).flatMap (·.pass.assessmentsFor channel)).Perm
        ((turns store' inputs').flatMap (·.pass.assessmentsFor channel)) ∧
      (∀ id cfg, ((turns store inputs).flatMap (·.pass.handedOver)).count (id, cfg) =
        if map.requiredRuleIds id cfg ≠ [] ∧
          ∀ ruleId ∈ map.requiredRuleIds id cfg, ruleId ∈ inputs.map (·.2.ruleResult.id)
        then 1 else 0) ∧
      ∀ t ∈ turns store inputs ++ turns store' inputs', ∀ s ∈ Effect.sends t.pass.effects,
        t.event.context.Carried s := by
  have hin := fun input hi ↦ hroutes input (List.mem_append_left inputs' hi)
  have hin' := fun input hi ↦ hroutes input (List.mem_append_right inputs hi)
  have hnodup' := (ruleIds_perm hperm).nodup_iff.mp hnodup
  have hleft := handedOver_perm hr hnodup hr' hv hperm
  have hassess := assess_reported_perm map hperm hc
  have hmap (keys : List (String × String)) := List.map_congr_left fun key (_ : key ∈ keys) ↦
    (hassess key).1
  refine ⟨?_, ?_, ?_, ?_⟩
  · rw [hr.flatMap_assessments hnodup hin, hr'.flatMap_assessments hnodup' hin', hmap]
    exact hleft.map _
  · rw [hr.flatMap_assessmentsFor hnodup hin, hr'.flatMap_assessmentsFor hnodup' hin', hmap,
      List.filter_congr fun key _ ↦ (hassess key).2]
    exact (hleft.filter _).map _
  · intro id cfg
    exact hr.count_flatMap_handedOver hnodup hv
  · intro t ht
    obtain ht | ht := List.mem_append.mp ht
    · exact hr.carried_turn ht
    · exact hr'.carried_turn ht

end Orders

private def scoredOverTwo : NetworkMap :=
  .ofTypologies [⟨"T", "1", [⟨"A", "1"⟩]⟩, ⟨"U", "1", [⟨"A", "1"⟩, ⟨"B", "1"⟩]⟩]

private def sumOfBoth : Definition :=
  { id := "U", cfg := "1"
    rules := [⟨"A", "1", "a", [⟨".01", 100.0⟩]⟩, ⟨"B", "1", "b", [⟨".01", 200.0⟩]⟩]
    expression := .apply .add [.term "a", .term "b"]
    workflow := { alert := some 200.0, interdiction := some 300.0 } }

private def scoringReport (id : String) : Services × Event :=
  ({ Services.plain with
      routes := ⟨fun id _ ↦ .ok (if id = "U" then some sumOfBoth else none), "cms",
        fun _ _ ↦ none, fun _ ↦ 0⟩ },
    .ofRule scoredOverTwo "m" id "1")

private theorem consistent_sumOfBoth :
    Consistent sumOfBoth.rules
      ([scoringReport "A", scoringReport "B"].map (·.2.ruleResult)) := by
  have hentry : ∀ r ∈ [scoringReport "A", scoringReport "B"].map (·.2.ruleResult),
      ∀ e ∈ findWeight? sumOfBoth.rules r,
        e = ⟨"A", "1", ".01", "a", 100.0⟩ ∨ e = ⟨"B", "1", ".01", "b", 200.0⟩ := by
    intro r hr e he
    simp only [List.map_cons, List.map_nil, List.mem_cons, List.not_mem_nil, or_false] at hr
    obtain rfl | rfl := hr
    · exact .inl (Option.some.inj he.symm)
    · exact .inr (Option.some.inj he.symm)
  intro r hr s hs e he f hf hterm
  obtain rfl | rfl := hentry r hr e he
  · obtain rfl | rfl := hentry s hs f hf
    · rfl
    · exact absurd hterm (by decide)
  · obtain rfl | rfl := hentry s hs f hf
    · exact absurd hterm (by decide)
    · rfl

/-- Two rules reported in both orders, with a definition that weighs them under different terms: the
typologies leave with the same assessments. -/
theorem assessments_both_orders :
    Reporting scoredOverTwo "m" {} [scoringReport "A", scoringReport "B"] ∧
      Reporting scoredOverTwo "m" {} [scoringReport "B", scoringReport "A"] ∧
      scoredOverTwo.SingleVersion ∧
      Consistent sumOfBoth.rules ([scoringReport "A", scoringReport "B"].map (·.2.ruleResult)) ∧
      ((turns {} [scoringReport "A", scoringReport "B"]).flatMap (·.pass.assessments)).Perm
        ((turns {} [scoringReport "B", scoringReport "A"]).flatMap (·.pass.assessments)) ∧
      ((turns {} [scoringReport "A", scoringReport "B"]).flatMap
          (·.pass.assessmentsFor "cms")).Perm
        ((turns {} [scoringReport "B", scoringReport "A"]).flatMap
          (·.pass.assessmentsFor "cms")) ∧
      ((turns {} [scoringReport "A", scoringReport "B"]).flatMap (·.pass.handedOver)).count
        ("U", "1") = 1 := by
  have hr : Reporting scoredOverTwo "m" {} [scoringReport "A", scoringReport "B"] := by
    constructor
    · rfl
    all_goals decide
  have hr' : Reporting scoredOverTwo "m" {} [scoringReport "B", scoringReport "A"] := by
    constructor
    · rfl
    all_goals decide
  have hv : scoredOverTwo.SingleVersion := by decide
  have hc : ∀ id cfg d, (scoringReport "A").1.routes.define id cfg = .ok (some d) →
      Consistent d.rules ([scoringReport "A", scoringReport "B"].map (·.2.ruleResult)) := by
    intro id cfg d hd
    have hd : (if id = "U" then some sumOfBoth else none) = some d := Except.ok.inj hd
    split at hd
    · cases hd
      exact consistent_sumOfBoth
    · cases hd
  have hroutes : ∀ input ∈ [scoringReport "A", scoringReport "B"] ++
      [scoringReport "B", scoringReport "A"],
      input.1.routes.define = (scoringReport "A").1.routes.define ∧
        input.1.routes.interdictionChannel = "cms" := by
    intro input hi
    simp only [List.cons_append, List.nil_append, List.mem_cons, List.not_mem_nil, or_false] at hi
    obtain rfl | rfl | rfl | rfl := hi <;> exact ⟨rfl, rfl⟩
  obtain ⟨hdefault, hinterdiction, hcount, -⟩ :=
    assessments_in_any_order hr hr' hv hroutes (by decide) (.swap _ _ _) hc
  have honce := hcount "U" "1"
  rw [if_pos (by decide)] at honce
  exact ⟨hr, hr', hv, consistent_sumOfBoth, hdefault, hinterdiction, honce⟩

end Reporting
end RiskTypology
