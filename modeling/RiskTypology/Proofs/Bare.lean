import RiskTypology.Aggregation
import RiskTypology.Proofs.Evaluation.Weights
import RiskTypology.Proofs.Routing.Ruling

/-!
# What decides

Of an event its message id, the outcome it reports and the listings of its map decide; all else is
carried along. The bare form of data holds what decides and blanks for the rest. From bare data the
same reports arise, bare themselves, the same of them are ready, and they leave with the same
rulings.
-/

namespace RiskTypology

/-- A rule result with nothing but its outcome. -/
def RuleResult.bare (r : RuleResult) : RuleResult :=
  { id := r.id, cfg := r.cfg, subRuleRef := r.subRuleRef }

/-- A channel with nothing but its listings. -/
def Channel.bare (c : Channel) : Channel := ⟨"", "", c.typologies⟩

/-- A message with nothing but the listings of its channels. -/
def Message.bare (m : Message) : Message := ⟨"", "", "", m.channels.map Channel.bare⟩

/-- A map with nothing but its listings. -/
def NetworkMap.bare (m : NetworkMap) : NetworkMap := { messages := m.messages.map Message.bare }

/-- A transaction with nothing but its message id. -/
def Transaction.bare (t : Transaction) : Transaction := { t.minimal with txTp := "" }

/-- An event with nothing but its message id, the outcome it reports and the listings of its map. -/
def Event.bare (e : Event) : Event :=
  ⟨e.networkMap.bare, e.ruleResult.bare, e.transaction.bare, none⟩

/-- A report whose rule results have nothing but their outcomes. -/
def TypologyResult.bare (r : TypologyResult) : TypologyResult :=
  { r with ruleResults := r.ruleResults.map RuleResult.bare }

/-- Bare results have the ids they had. -/
@[simp] theorem RuleResult.distinctIds_bare (results : List RuleResult) :
    distinctIds (results.map bare) = distinctIds results := by
  rw [distinctIds, List.map_map]
  rfl

/-- A bare map has the listings it had. -/
@[simp] theorem NetworkMap.typologies_bare (map : NetworkMap) :
    map.bare.typologies = map.typologies := by
  simp only [typologies, bare, Message.bare, Channel.bare, List.flatMap_map]

/-- A bare event is gathered under the key it was. -/
@[simp] theorem Event.cacheKey_bare (e : Event) : e.bare.cacheKey = e.cacheKey := rfl

section

variable (map : NetworkMap) (gathered : List RuleResult)

/-- A bare map waits for as many rules as it did. -/
@[simp] theorem NetworkMap.ruleCount_bare : map.bare.ruleCount = map.ruleCount := by
  simp [ruleCount, allRuleIds]

/-- In a bare map a typology waits for the rule ids it did. -/
@[simp] theorem NetworkMap.requiredRuleIds_bare (id cfg : String) :
    map.bare.requiredRuleIds id cfg = map.requiredRuleIds id cfg := by
  simp [requiredRuleIds, listings]

/-- A bare report is ready when it was. -/
theorem isReady_bare (r : TypologyResult) : isReady map.bare r.bare = isReady map r := by
  rw [isReady, isReady, map.requiredRuleIds_bare, TypologyResult.gatheredCount,
    RuleResult.distinctCount, TypologyResult.bare, RuleResult.distinctIds_bare]
  rfl

/-- A bare result touches the typologies it did. -/
theorem touchedBy_bare (new : RuleResult) : touchedBy map.bare new.bare = touchedBy map new := by
  rw [touchedBy, map.typologies_bare]
  rfl

/-- On bare results the same reports arise, bare. -/
theorem report?_bare (key : String × String) :
    report? map.bare (gathered.map .bare) key = (report? map gathered key).map .bare := by
  have hrelevant : relevant map.bare (gathered.map .bare) key.1 key.2 =
      (relevant map gathered key.1 key.2).map .bare := by
    simp only [relevant, map.requiredRuleIds_bare, List.filter_map]
    rfl
  rw [report?, report?, hrelevant]
  cases relevant map gathered key.1 key.2 <;> rfl

/-- From bare data the same reports arise, bare. -/
theorem aggregate_bare (new : RuleResult) :
    (aggregate map.bare (gathered.map .bare) new.bare).results =
      (aggregate map gathered new).results.map .bare := by
  simp only [aggregate, touchedBy_bare, List.map_filterMap, report?_bare]

end

/-- Bare results score as they did. -/
theorem Definition.value_score_bare (d : Definition) (results : List RuleResult) :
    (d.score (results.map .bare)).value = (d.score results).value := by
  have hweights : termWeight? d.rules (results.map .bare) = termWeight? d.rules results := by
    funext term
    have hentry : findWeight? d.rules ∘ RuleResult.bare = findWeight? d.rules := by
      funext r
      exact findWeight?_congr rfl
    rw [termWeight?, List.filterMap_map, hentry, termWeight?]
  rw [score, score, evaluate, evaluate, hweights]

/-- A bare report has the rulings it had. -/
theorem rulings_bare (routes : Routes) (r : TypologyResult) :
    rulings routes r.bare = rulings routes r := by
  have hscore (d : Definition) :
      (d.score r.bare.ruleResults).value = (d.score r.ruleResults).value :=
    d.value_score_bare r.ruleResults
  simp only [rulings, hscore]
  rfl

/-- Routing bare reports comes to the rulings it did. -/
theorem map_ruling_route_bare (routes : Routes) {c c' : Context} (counts counts' : RuleCounts)
    (h : c'.networkMap = c.networkMap.bare) (reports : List TypologyResult) :
    (Effect.sends (route routes c' counts' (reports.map .bare)).effects).map Send.ruling =
      (Effect.sends (route routes c counts reports).effects).map Send.ruling := by
  have hready : isReady c.networkMap.bare ∘ TypologyResult.bare = isReady c.networkMap := by
    funext r
    exact isReady_bare c.networkMap r
  have hrulings : (fun r ↦ rulings routes r.bare) = rulings routes := by
    funext r
    exact rulings_bare routes r
  rw [map_ruling_route, map_ruling_route, h, List.filter_map, hready, List.flatMap_map, hrulings]

end RiskTypology
