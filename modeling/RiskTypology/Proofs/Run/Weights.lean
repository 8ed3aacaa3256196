import RiskTypology.Proofs.Accumulator.Origin
import RiskTypology.Proofs.Run.Turns

/-!
# Where reported weights come from

Every rule result that is reported on has come with an event of its transaction. The definition of
the typology fills in the weight of each result for whose outcome it has an entry, whatever weight
came with it. Any other result keeps the weight it came with, so the weights that leave are the
definition's exactly if no such result came with one.
-/

namespace RiskTypology

/-- The weight the definition of a typology gives the outcome of a result; none without a definition
and none without an entry. -/
def Routes.weight? (routes : Routes) (id cfg : String) (r : RuleResult) : Option Float :=
  match routes.define id cfg with
  | .ok (some d) => (findWeight? d.rules r).map (·.weight)
  | _ => none

/-- A result with the weight the definition gives it, or with its own if that gives it none. -/
def Routes.weighed (routes : Routes) (id cfg : String) (r : RuleResult) : RuleResult :=
  { r with weight := (routes.weight? id cfg r).or r.weight }

section

variable {routes : Routes} {c : Context} {counts : RuleCounts} {r : TypologyResult} {s : Send}

/-- Weighing leaves a result its outcome, so it has the same weight. -/
theorem Routes.weight?_weighed (routes : Routes) (id cfg : String) (r : RuleResult) :
    routes.weight? id cfg (routes.weighed id cfg r) = routes.weight? id cfg r := by
  have ho : (routes.weighed id cfg r).outcome = r.outcome := rfl
  unfold weight?
  split
  · rw [findWeight?_congr ho]
  · rfl

private theorem Routes.weighed_of_define {d : Definition} {id cfg : String}
    (hd : routes.define id cfg = .ok (some d)) :
    routes.weighed id cfg = weigh d.rules := by
  funext x
  simp only [weighed, weight?, hd, weigh]
  cases findWeight? d.rules x <;> rfl

private theorem Routes.weighed_of_not_defines {id cfg : String}
    (hd : routes.defines id cfg = false) : routes.weighed id cfg = fun x ↦ x := by
  funext x
  have hw : routes.weight? id cfg x = none := by
    unfold weight?
    split
    · next d h => exact absurd h (Routes.defines_eq_false_iff.mp hd d)
    · rfl
  rw [weighed, hw, Option.none_or]

/-- A report leaves with its results weighed. -/
theorem Departure.ruleResults_eq (h : Departure routes c counts r s) :
    s.payload.typologyResult.ruleResults = r.ruleResults.map (routes.weighed r.id r.cfg) := by
  cases h with
  | scored duration hd =>
    rw [Routes.weighed_of_define hd]
    rfl
  | interdicting duration hd =>
    rw [Routes.weighed_of_define hd]
    rfl
  | unscored duration hd =>
    rw [Routes.weighed_of_not_defines hd, List.map_id']
    rfl

end

namespace Pass

variable {services : Services} {store : Store} {event : Event} {s : Send}

/-- A pass adds to the store what its event reports, and nothing else. -/
theorem from_run {events : List Event} (h : store.From events) :
    (run services store event).store.From (events ++ [event]) := by
  have hs := h.save services.store services.now event
  rw [run_eq]
  split
  · next after results hsave =>
    rw [hsave] at hs
    cases hc : (finish services after event results).outcome.cleanedUp with
    | true =>
      rw [store_finish_of_cleanedUp _ _ _ _ hc]
      exact hs.delete _
    | false =>
      rw [store_finish_of_not_cleanedUp _ _ _ _ hc]
      exact hs
  · next after hsave =>
    rw [hsave] at hs
    exact hs
  · next after e hsave =>
    rw [hsave] at hs
    exact hs

/-- What a pass sends reports on what is gathered for its typology, weighed. -/
theorem ruleResults_of_mem_run (hs : s ∈ Effect.sends (run services store event).effects) :
    let r := s.payload.typologyResult
    r.ruleResults = (relevant event.networkMap (gathered services store event) r.id r.cfg).map
      (services.routes.weighed r.id r.cfg) := by
  intro r
  obtain ⟨-, key, h⟩ := departure_of_mem_run hs
  have hkey : (r.id, r.cfg) = key := h.key_eq
  subst hkey
  exact h.ruleResults_eq

end Pass

section

variable {store : Store} {inputs : List (Services × Event)} {earlier later : List Turn}
  {here : Turn}

/-- From an empty store, a turn finds what events have reported before and nothing else. -/
theorem from_before (hs : store.From []) (h : turns store inputs = earlier ++ here :: later) :
    here.before.From (earlier.map Turn.event) := by
  induction earlier using List.reverseRecOn generalizing here later with
  | nil =>
    rw [before_first h]
    exact hs
  | append_singleton earlier t ih =>
    rw [List.append_assoc, List.singleton_append] at h
    rw [before_next h, List.map_append, List.map_singleton]
    exact Pass.from_run (ih h)

/-- From an empty store, a turn gathers what events of its transaction have reported, as it is kept.
-/
theorem reported_of_mem_results (hs : store.From [])
    (h : turns store inputs = earlier ++ here :: later) {r : RuleResult} (hr : r ∈ here.results) :
    ∃ t ∈ earlier ++ [here], t.event.cacheKey = here.event.cacheKey ∧
      r = t.event.ruleResult.kept := by
  have hsaved := (from_before hs h).save here.services.store here.services.now here.event
  obtain ⟨e, he, hkey, hkept⟩ := hsaved.mem_results hr
  rw [← List.map_singleton (f := Turn.event), ← List.map_append] at he
  obtain ⟨t, ht, rfl⟩ := List.mem_map.mp he
  exact ⟨t, ht, hkey, hkept⟩

/-- The weights that leave in a run. What is sent reports on what is gathered for the typology, each
result with the weight the definition gives its outcome or, if it gives none, with its own. So all
weights are the definition's exactly if no gathered result that the definition gives no weight has
one of its own. In a run from an empty store these are the weights that came with the events of the
transaction. -/
theorem weights_sent (h : turns store inputs = earlier ++ here :: later) {s : Send}
    (hs : s ∈ Effect.sends here.pass.effects) :
    let r := s.payload.typologyResult
    let defined := here.services.routes.weight? r.id r.cfg
    let gathered := relevant here.event.networkMap here.results r.id r.cfg
    r.ruleResults = gathered.map (fun y ↦ { y with weight := (defined y).or y.weight }) ∧
    ((∀ x ∈ r.ruleResults, x.weight = defined x) ↔
      ∀ y ∈ gathered, defined y = none → y.weight = none) ∧
    (store.entries = [] → ∀ y ∈ gathered, ∃ t ∈ earlier ++ [here],
      t.event.cacheKey = here.event.cacheKey ∧
        y = { t.event.ruleResult with
          weight := t.event.ruleResult.weight.filter Float.isFinite }) := by
  intro r defined gathered
  have hresults : r.ruleResults = gathered.map (here.services.routes.weighed r.id r.cfg) :=
    Pass.ruleResults_of_mem_run hs
  refine ⟨hresults, ?_, ?_⟩
  · rw [hresults, List.forall_mem_map]
    refine forall₂_congr fun y _ ↦ ?_
    have hdefined : defined (here.services.routes.weighed r.id r.cfg y) = defined y :=
      here.services.routes.weight?_weighed r.id r.cfg y
    rw [hdefined]
    change (defined y).or y.weight = defined y ↔ _
    cases defined y <;> simp
  · intro hempty y hy
    exact reported_of_mem_results (.of_entries_eq_nil hempty) h (List.mem_filter.mp hy).1

private def weightOfA (id cfg : String) : Except String (Option Definition) :=
  .ok (some
    { id := id, cfg := cfg, rules := [⟨"A", "1", "a", [⟨".01", 2.0⟩, ⟨".01", 3.0⟩]⟩],
      expression := .term "a", workflow := {} })

private def weighing : Services :=
  { Services.plain with routes := ⟨weightOfA, "cms", fun _ _ ↦ none, fun _ ↦ 0⟩ }

private def ofBoth : NetworkMap := .ofTypologies [⟨"T", "1", [⟨"A", "1"⟩, ⟨"B", "1"⟩]⟩]

private def supplying (id : String) (weight : Option Float) : Event :=
  { Event.ofRule ofBoth "m" id "1" with
    ruleResult := { id := id, cfg := "1", subRuleRef := ".01", weight := weight } }

private def firstTurn (weight : Option Float) : Turn := ⟨weighing, supplying "A" weight, {}⟩

private def secondTurn (weight weight' : Option Float) : Turn :=
  ⟨weighing, supplying "B" weight', (firstTurn weight).pass.store⟩

private theorem weight?_weighing (id cfg : String) (weight : Option Float) :
    weighing.routes.weight? id cfg (supplying "A" weight).ruleResult = some 3.0 := rfl

/-- A result that came with a weight and has two entries in the definition, and one that has none
and came without a weight: the first leaves with the weight of the last entry, the second without.
-/
theorem weights_of_last_entry :
    let here := secondTurn (some 9.0) none
    turns {} [(weighing, supplying "A" (some 9.0)), (weighing, supplying "B" none)] =
        [firstTurn (some 9.0)] ++ here :: [] ∧
      (Effect.sends here.pass.effects).map (·.payload.typologyResult.ruleResults.map (·.id)) =
        [["A", "B"]] ∧
      weighing.routes.weight? "T" "1" (supplying "A" (some 9.0)).ruleResult = some 3.0 ∧
      ∀ s ∈ Effect.sends here.pass.effects, ∀ x ∈ s.payload.typologyResult.ruleResults,
        x.weight = weighing.routes.weight? s.payload.typologyResult.id
          s.payload.typologyResult.cfg x := by
  intro here
  have h : turns {} [(weighing, supplying "A" (some 9.0)), (weighing, supplying "B" none)] =
      [firstTurn (some 9.0)] ++ here :: [] := rfl
  refine ⟨h, by decide, weight?_weighing _ _ _, ?_⟩
  intro s hs
  obtain ⟨-, hiff, hcame⟩ := weights_sent h hs
  apply hiff.mpr
  intro y hy hnone
  obtain ⟨t, ht, -, rfl⟩ := hcame rfl y hy
  rcases List.mem_append.mp ht with ht | ht
  · obtain rfl := List.mem_singleton.mp ht
    cases (weight?_weighing _ _ _).symm.trans hnone
  · obtain rfl := List.mem_singleton.mp ht
    rfl

/-- A weight that came with a result without an entry in the definition leaves with it. -/
theorem weight_of_sender :
    ¬ ∀ t ∈ turns {} [(weighing, supplying "A" none), (weighing, supplying "B" (some 9.0))],
      ∀ s ∈ Effect.sends t.pass.effects, ∀ x ∈ s.payload.typologyResult.ruleResults,
        x.weight.isSome = (t.services.routes.weight? s.payload.typologyResult.id
          s.payload.typologyResult.cfg x).isSome := by
  decide

end
end RiskTypology
