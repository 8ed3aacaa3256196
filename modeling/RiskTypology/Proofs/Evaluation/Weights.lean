import Mathlib.Data.List.Basic
import RiskTypology.Evaluation

/-!
# Weights of rule results

A weight hangs on an outcome: a rule, its version and which outcome of it. Of several results with
one term the last gives the term its weight, so the order of results counts in general. It does not
when no two of the results claim different weights for one term; the weights of terms then depend on
the outcomes that are reported and on nothing else.
-/

namespace RiskTypology

/-- What the weight of a result hangs on: the rule, its version and which outcome it is. -/
def RuleResult.outcome (r : RuleResult) : String × String × String := (r.id, r.cfg, r.subRuleRef)

/-- The outcome an entry weighs. -/
def WeightEntry.outcome (e : WeightEntry) : String × String × String := (e.id, e.cfg, e.ref)

/-- An entry gives the weight of the results with its outcome. -/
theorem WeightEntry.covers_iff {e : WeightEntry} {r : RuleResult} :
    e.covers r = true ↔ e.outcome = r.outcome := by
  simp [covers, outcome, RuleResult.outcome, and_assoc]

variable {rules : List RuleWeights} {results results' : List RuleResult}

/-- Results of one outcome have one weight. -/
theorem findWeight?_congr {r s : RuleResult} (h : r.outcome = s.outcome) :
    findWeight? rules r = findWeight? rules s := by
  simp only [RuleResult.outcome, Prod.mk.injEq] at h
  simp only [findWeight?, WeightEntry.covers, h]

/-- No two results claim different weights for one term. -/
def Consistent (rules : List RuleWeights) (results : List RuleResult) : Prop :=
  ∀ r ∈ results, ∀ s ∈ results, ∀ e ∈ findWeight? rules r, ∀ f ∈ findWeight? rules s,
    e.term = f.term → e.weight = f.weight

/-- Results whose outcomes are among those of consistent ones are consistent. -/
theorem Consistent.of_outcomes (h : Consistent rules results)
    (hs : results'.map RuleResult.outcome ⊆ results.map RuleResult.outcome) :
    Consistent rules results' := by
  intro r hr s hs' e he f hf
  obtain ⟨r', hr', hor⟩ := List.mem_map.mp (hs (List.mem_map_of_mem hr))
  obtain ⟨s', hs'', hos⟩ := List.mem_map.mp (hs (List.mem_map_of_mem hs'))
  rw [findWeight?_congr hor.symm] at he
  rw [findWeight?_congr hos.symm] at hf
  exact h r' hr' s' hs'' e he f hf

private theorem termWeight?_eq_some {term : String} {w : Float}
    (h : termWeight? rules results term = some w) :
    ∃ r ∈ results, ∃ e ∈ findWeight? rules r, e.term = term ∧ e.weight = w := by
  rw [termWeight?, List.findRev?_eq_find?_reverse, Option.map_eq_some_iff] at h
  obtain ⟨e, hf, hw⟩ := h
  obtain ⟨r, hr, he⟩ := List.mem_filterMap.mp (List.mem_reverse.mp (List.mem_of_find?_eq_some hf))
  exact ⟨r, hr, e, he, by simpa using List.find?_some hf, hw⟩

private theorem isSome_termWeight? {r : RuleResult} {e : WeightEntry} (hr : r ∈ results)
    (he : e ∈ findWeight? rules r) : (termWeight? rules results e.term).isSome := by
  rw [termWeight?, List.findRev?_eq_find?_reverse, Option.isSome_map, List.find?_isSome]
  exact ⟨e, List.mem_reverse.mpr (List.mem_filterMap.mpr ⟨r, hr, he⟩), by simp⟩

/-- For consistent results a term has a weight exactly when some result claims that weight for it.
-/
theorem termWeight?_eq_some_iff (h : Consistent rules results) {term : String} {w : Float} :
    termWeight? rules results term = some w ↔
      ∃ r ∈ results, ∃ e ∈ findWeight? rules r, e.term = term ∧ e.weight = w := by
  refine ⟨termWeight?_eq_some, ?_⟩
  rintro ⟨r, hr, e, he, rfl, rfl⟩
  obtain ⟨w, hw⟩ := Option.isSome_iff_exists.mp (isSome_termWeight? hr he)
  -- The last result with the term need not be this one, but it claims the same weight.
  obtain ⟨s, hs, f, hf, hterm, rfl⟩ := termWeight?_eq_some hw
  rw [hw, h s hs r hr f hf e he hterm]

private theorem claimed_of_outcomes {term : String} {w : Float}
    (hs : results.map RuleResult.outcome ⊆ results'.map RuleResult.outcome)
    (h : ∃ r ∈ results, ∃ e ∈ findWeight? rules r, e.term = term ∧ e.weight = w) :
    ∃ r ∈ results', ∃ e ∈ findWeight? rules r, e.term = term ∧ e.weight = w := by
  obtain ⟨r, hr, e, he, hclaim⟩ := h
  obtain ⟨r', hr', ho⟩ := List.mem_map.mp (hs (List.mem_map_of_mem hr))
  exact ⟨r', hr', e, by rwa [findWeight?_congr ho], hclaim⟩

/-- For consistent results the weights of terms depend on the reported outcomes alone. -/
theorem termWeight?_congr (h : Consistent rules results)
    (hs : results.map RuleResult.outcome ⊆ results'.map RuleResult.outcome)
    (hs' : results'.map RuleResult.outcome ⊆ results.map RuleResult.outcome) :
    termWeight? rules results = termWeight? rules results' := by
  funext term
  apply Option.ext
  intro w
  rw [termWeight?_eq_some_iff h, termWeight?_eq_some_iff (h.of_outcomes hs')]
  exact ⟨claimed_of_outcomes hs, claimed_of_outcomes hs'⟩

/-- An evaluation has its value and its unresolved terms from the weights of terms. -/
theorem evaluate_congr (hw : termWeight? rules results = termWeight? rules results')
    (expression : Expression) :
    (evaluate rules results expression).value = (evaluate rules results' expression).value ∧
      (evaluate rules results expression).unresolved =
        (evaluate rules results' expression).unresolved := by
  simp only [evaluate, hw, and_self]

namespace Definition

variable {d : Definition}

/-- A definition gives consistent results in another order the same value and unresolved terms, and
the results the same weights. -/
theorem score_perm (h : Consistent d.rules results) (hp : results.Perm results') :
    (d.score results).value = (d.score results').value ∧
      (d.score results).unresolved = (d.score results').unresolved ∧
      (d.score results).results.Perm (d.score results').results := by
  have ho := hp.map RuleResult.outcome
  have hw : termWeight? d.rules results = termWeight? d.rules results' :=
    termWeight?_congr h ho.subset ho.symm.subset
  obtain ⟨hvalue, hunresolved⟩ := evaluate_congr hw d.expression
  exact ⟨hvalue, hunresolved, hp.map _⟩

end Definition

/-- A result without an entry gives no term a weight. -/
theorem termWeight?_concat_of_none {r : RuleResult} (h : findWeight? rules r = none)
    (results : List RuleResult) (term : String) :
    termWeight? rules (results ++ [r]) term = termWeight? rules results term := by
  simp [termWeight?, h]

/-- A further result with an entry decides on the weight of its term, and on no other. -/
theorem termWeight?_concat_of_some {r : RuleResult} {e : WeightEntry}
    (h : findWeight? rules r = some e) (results : List RuleResult) (term : String) :
    termWeight? rules (results ++ [r]) term =
      if e.term = term then some e.weight else termWeight? rules results term := by
  by_cases he : e.term = term <;>
    simp [termWeight?, List.findRev?_eq_find?_reverse, h, he]

/-- Results that report the same outcomes, in any order, any number of times and with whatever else
they say. -/
def SameOutcomes (results results' : List RuleResult) : Prop :=
  ∀ o, o ∈ results.map RuleResult.outcome ↔ o ∈ results'.map RuleResult.outcome

/-- A result that is reported already may come again. -/
theorem sameOutcomes_concat {r : RuleResult} (hr : r ∈ results) :
    SameOutcomes results (results ++ [r]) := by
  intro o
  have ho : r.outcome ∈ results.map RuleResult.outcome := List.mem_map_of_mem hr
  constructor
  · intro h
    simp [h]
  · intro h
    rw [List.map_append, List.mem_append, List.map_singleton, List.mem_singleton] at h
    cases h with
    | inl h => exact h
    | inr h => rwa [h]

/-- A result that an evaluation gives back has the weight of its entry, if it has one. -/
theorem weight_of_mem_evaluate {expression : Expression} {r : RuleResult} {e : WeightEntry}
    (hr : r ∈ (evaluate rules results expression).results) (he : findWeight? rules r = some e) :
    r.weight = some e.weight := by
  obtain ⟨s, -, rfl⟩ := List.mem_map.mp hr
  have hs : findWeight? rules s = some e := by
    rw [← he]
    apply findWeight?_congr
    unfold weigh
    split <;> rfl
  simp only [weigh, hs]

/-- Results are consistent under a weight table exactly if every definition with the table scores
all results of the same outcomes alike: to the same value with the same unresolved terms, and with
the same weight for the same outcome wherever it has one. -/
theorem consistent_iff_scored_alike (rules : List RuleWeights) (results : List RuleResult) :
    Consistent rules results ↔
      ∀ d : Definition, d.rules = rules → ∀ results', SameOutcomes results results' →
        (d.score results).value = (d.score results').value ∧
          (d.score results).unresolved = (d.score results').unresolved ∧
          ∀ r ∈ (d.score results).results ++ (d.score results').results,
            ∀ s ∈ (d.score results).results ++ (d.score results').results,
              r.outcome = s.outcome → (findWeight? rules r).isSome → r.weight = s.weight := by
  constructor
  · rintro h d rfl results' hs
    have hw : termWeight? d.rules results = termWeight? d.rules results' :=
      termWeight?_congr h (fun o ↦ (hs o).mp) (fun o ↦ (hs o).mpr)
    obtain ⟨hvalue, hunresolved⟩ := evaluate_congr hw d.expression
    refine ⟨hvalue, hunresolved, ?_⟩
    intro r hr s hs ho hsome
    obtain ⟨e, he⟩ := Option.isSome_iff_exists.mp hsome
    have hf : findWeight? d.rules s = some e := by rw [← he, findWeight?_congr ho]
    have hweight : ∀ x ∈ (d.score results).results ++ (d.score results').results,
        findWeight? d.rules x = some e → x.weight = some e.weight := by
      intro x hx hxe
      cases List.mem_append.mp hx with
      | inl hx => exact weight_of_mem_evaluate hx hxe
      | inr hx => exact weight_of_mem_evaluate hx hxe
    rw [hweight r hr he, hweight s hs hf]
  · intro h r hr s hs e he f hf hterm
    -- The one result told last makes the term weigh `e.weight`, the other `f.weight`.
    let d : Definition :=
      { id := "", cfg := "", rules := rules, expression := .term e.term, workflow := {} }
    have hlast : ∀ x ∈ results, ∀ g, findWeight? rules x = some g → g.term = e.term →
        (d.score results).value = g.weight := by
      intro x hx g hg hgterm
      rw [(h d rfl _ (sameOutcomes_concat hx)).1]
      simp [d, Definition.score, evaluate, Expression.value, termWeight?_concat_of_some hg, hgterm]
    rw [← hlast r hr e he rfl, hlast s hs f hf hterm.symm]

private def sharedTerm : Definition :=
  { id := "T", cfg := "1"
    rules := [⟨"A", "1", "t", [⟨".01", 2.0⟩, ⟨".02", 3.0⟩]⟩, ⟨"B", "1", "t", [⟨".01", 2.0⟩]⟩]
    expression := .apply .add [.term "t", .term "u"]
    workflow := {} }

private def told (id : String) (reason : Option String) : RuleResult :=
  { id := id, cfg := "1", subRuleRef := ".01", reason := reason }

/-- Two rules with one term and one weight for it, reported once each, and again in another order
with one of them twice: they are scored alike. -/
theorem scored_alike_redelivered :
    let once := [told "A" none, told "B" none]
    let again := [told "B" (some "late"), told "A" none, told "B" none]
    Consistent sharedTerm.rules once ∧ SameOutcomes once again ∧
      (sharedTerm.score once).value = (sharedTerm.score again).value ∧
      (sharedTerm.score again).unresolved = ["u"] := by
  intro once again
  have hentry : ∀ r ∈ once, ∀ e ∈ findWeight? sharedTerm.rules r, e.weight = 2.0 := by
    intro r hr e he
    simp only [once, List.mem_cons, List.not_mem_nil, or_false] at hr
    obtain rfl | rfl := hr <;> cases he <;> rfl
  have hc : Consistent sharedTerm.rules once := by
    intro r hr s hs e he f hf _
    rw [hentry r hr e he, hentry s hs f hf]
  have hs : SameOutcomes once again := by
    intro o
    simp [once, again, told, RuleResult.outcome]
    tauto
  obtain ⟨hvalue, hunresolved, -⟩ :=
    (consistent_iff_scored_alike sharedTerm.rules once).mp hc sharedTerm rfl again hs
  refine ⟨hc, hs, hvalue, ?_⟩
  rw [← hunresolved]
  rfl

end RiskTypology
