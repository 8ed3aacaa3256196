import Mathlib.Data.Multiset.Defs
import RiskTypology.Proofs.Evaluation.Weights
import RiskTypology.Proofs.Routing.Departure

/-!
# Assessments

What a report says about its typology once it leaves: its score and what follows from it, and the
rule results with their weights, whose order carries no meaning. It depends on the definition and on
the gathered results alone. Every report that is ready leaves with its assessment on the default
channel, and if its score interdicts on the interdiction channel as well.
-/

namespace RiskTypology

/-- What a report says about its typology, the order of the rule results aside. -/
structure Assessment where
  id : String
  cfg : String
  result : Float
  ruleResults : Multiset RuleResult
  review : Bool
  workflow : ReportedThresholds

/-- The assessment a report gives. -/
def TypologyResult.assessment (r : TypologyResult) : Assessment :=
  ⟨r.id, r.cfg, r.result, r.ruleResults, r.review, r.workflow⟩

/-- The payload of a send to one named channel. -/
def Send.payloadFor? (channel : String) (s : Send) : Option Payload :=
  if s.channels = [channel] then some s.payload else none

/-- How long its evaluation took does not change the assessment of a scored report. -/
theorem TypologyResult.assessment_scored (r : TypologyResult) (d : Definition)
    (duration duration' : UInt64) :
    (r.scored d duration).assessment = (r.scored d duration').assessment := rfl

/-- The payloads handed to one named channel, in order. -/
def Effect.payloadsFor (channel : String) (effects : List Effect) : List Payload :=
  (Effect.sends effects).filterMap (Send.payloadFor? channel)

/-- A send that carries a context: its map, its metadata and its transaction, which may be cut down
on the default channel. -/
structure Context.Carried (c : Context) (s : Send) : Prop where
  networkMap : s.payload.networkMap = c.networkMap
  metadata : s.payload.metadata = c.metadata
  transaction : s.payload.transaction = c.transaction ∨
    s.channels = [] ∧ s.payload.transaction = c.transaction.minimal

section

variable (define : String → String → Except String (Option Definition))

/-- The assessment with which a report leaves: by its definition if there is one, otherwise as it
was gathered. -/
def assess (r : TypologyResult) : Assessment :=
  match define r.id r.cfg with
  | .ok (some d) => (r.scored d 0).assessment
  | _ => r.assessment

/-- Whether a report has a definition by which its score interdicts. -/
def interdicts (r : TypologyResult) : Bool :=
  match define r.id r.cfg with
  | .ok (some d) => Verdict.ofScore (d.score r.ruleResults).value d.workflow = .interdict
  | _ => false

variable {define} {id cfg : String} {results results' : List RuleResult}
  (h : ∀ d, define id cfg = .ok (some d) → Consistent d.rules results)
  (hp : results.Perm results')

include h hp in
/-- The order in which consistent results are gathered does not show in the assessment. -/
theorem assess_perm :
    assess define (.unscored id cfg results) = assess define (.unscored id cfg results') := by
  simp only [assess, TypologyResult.unscored]
  split
  · next d hd =>
    obtain ⟨hvalue, -, hweighed⟩ := Definition.score_perm (h d hd) hp
    have hm : ((d.score results).results : Multiset RuleResult) = (d.score results').results :=
      Multiset.coe_eq_coe.mpr hweighed
    simp only [TypologyResult.assessment, TypologyResult.scored, hvalue, hm]
  · have hm : (results : Multiset RuleResult) = results' := Multiset.coe_eq_coe.mpr hp
    simp only [TypologyResult.assessment, hm]

include h hp in
/-- The order in which consistent results are gathered does not decide whether the score
interdicts. -/
theorem interdicts_perm :
    interdicts define (.unscored id cfg results) =
      interdicts define (.unscored id cfg results') := by
  simp only [interdicts, TypologyResult.unscored]
  split
  · next d hd =>
    obtain ⟨hvalue, -⟩ := Definition.score_perm (h d hd) hp
    exact congrArg (fun x ↦ decide (Verdict.ofScore x d.workflow = .interdict)) hvalue
  · rfl

end

section

variable (routes : Routes) (c : Context) (counts : RuleCounts)

/-- The block of a report hands the report's assessment to the default channel, and to the
interdiction channel if it interdicts. -/
theorem assessment_block? {duration : UInt64} {r : TypologyResult} {b : Block}
    (h : block? routes c counts duration r = some b) :
    b.default.typologyResult.assessment = assess routes.define r ∧
      (b.sends.filterMap (Send.payloadFor? routes.interdictionChannel)).map
          (·.typologyResult.assessment) =
        if interdicts routes.define r then [assess routes.define r] else [] := by
  obtain ⟨d, hd, rfl⟩ | ⟨hd, notice, rfl⟩ := block?_cases routes c counts h
  · simp only [assess, interdicts, hd, scoredBlock]
    constructor
    · split <;> rfl
    · by_cases hv : Verdict.ofScore (d.score r.ruleResults).value d.workflow = .interdict
      · simp [hv, Block.sends, Send.payloadFor?, Context.payload, r.assessment_scored d duration 0]
      · simp [hv, Block.sends, Send.payloadFor?]
  · have hi : interdicts routes.define r = false := by
      unfold interdicts
      split
      · next d he => exact absurd he (hd d)
      · rfl
    have ha : assess routes.define r = r.assessment := by
      unfold assess
      split
      · next d he => exact absurd he (hd d)
      · rfl
    rw [hi, ha]
    exact ⟨rfl, rfl⟩

/-- On the default channel routing hands out the assessment of every report that is ready. -/
theorem assessments_route (reports : List TypologyResult) :
    (Effect.defaultPayloads (route routes c counts reports).effects).map
        (·.typologyResult.assessment) =
      (reports.filter (isReady c.networkMap)).map (assess routes.define) := by
  rw [route_eq, defaultPayloads_perform _ _ _ (proper_blocksFrom routes c counts 0 reports),
    List.map_map]
  exact map_blocksFrom routes c counts
    (fun _ _ _ h ↦ (assessment_block? routes c counts h).1) 0 reports

/-- On the interdiction channel routing hands out the assessment of every report that is ready and
interdicts. -/
theorem interdictions_route (reports : List TypologyResult) :
    (Effect.payloadsFor routes.interdictionChannel (route routes c counts reports).effects).map
        (·.typologyResult.assessment) =
      ((reports.filter (isReady c.networkMap)).filter (interdicts routes.define)).map
        (assess routes.define) := by
  have hb := map_blocksFrom routes c counts
    (fun _ _ _ h ↦ (assessment_block? routes c counts h).2) 0 reports
  rw [route_eq, Effect.payloadsFor,
    sends_perform _ _ _ (proper_blocksFrom routes c counts 0 reports),
    List.filterMap_flatMap, List.map_flatMap, List.flatMap_def, hb]
  induction reports.filter (isReady c.networkMap) with
  | nil => rfl
  | cons r rest ih =>
    rw [List.map_cons, List.flatten_cons, ih, List.filter_cons]
    split <;> rfl

/-- A report that leaves carries the context. -/
theorem Departure.carried {r : TypologyResult} {s : Send} (h : Departure routes c counts r s) :
    c.Carried s := by
  cases h with
  | scored =>
    refine ⟨rfl, rfl, ?_⟩
    unfold Context.outgoing
    dsimp only
    split
    · exact .inl rfl
    · exact .inr ⟨rfl, rfl⟩
  | interdicting => exact ⟨rfl, rfl, .inl rfl⟩
  | unscored => exact ⟨rfl, rfl, .inl rfl⟩

/-- Everything routing sends carries the context. -/
theorem carried_route (reports : List TypologyResult) :
    ∀ s ∈ Effect.sends (route routes c counts reports).effects, c.Carried s := by
  intro s hs
  obtain ⟨r, -, -, h⟩ := departure_of_mem_route hs
  exact h.carried

end
end RiskTypology
