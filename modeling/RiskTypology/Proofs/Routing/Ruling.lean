import RiskTypology.Proofs.Routing.Departure

/-!
# Rulings

What a send says about its typology apart from the results it rests on: where it goes, the score,
and what follows from the score under which thresholds. A report that is ready leaves with the
rulings that its definition comes to on its results; nothing else of the event shows in them, nor
what else is outstanding.
-/

namespace RiskTypology

/-- What a send rules on a typology, and where it goes. -/
structure Ruling where
  channels : List String
  id : String
  cfg : String
  result : Float
  review : Bool
  workflow : ReportedThresholds

/-- The ruling of a send. -/
def Send.ruling (s : Send) : Ruling :=
  let r := s.payload.typologyResult
  ⟨s.channels, r.id, r.cfg, r.result, r.review, r.workflow⟩

/-- The rulings of a report that is ready, in order: by its definition, on the interdiction channel
first if that is the verdict, or as the report was gathered if it has none. -/
def rulings (routes : Routes) (r : TypologyResult) : List Ruling :=
  match routes.define r.id r.cfg with
  | .ok (some d) =>
    let score := (d.score r.ruleResults).value
    let verdict := Verdict.ofScore score d.workflow
    let ruling (channels : List String) : Ruling :=
      ⟨channels, r.id, r.cfg, score, verdict.needsReview,
        ⟨d.workflow.alert.getD r.workflow.alert, d.workflow.interdiction⟩⟩
    (if verdict = .interdict then [ruling [routes.interdictionChannel]] else []) ++ [ruling []]
  | _ => [⟨[], r.id, r.cfg, r.result, r.review, r.workflow⟩]

variable (routes : Routes) (c : Context) (counts : RuleCounts)

/-- A report leaves with its rulings, at any time and in any context. -/
theorem map_ruling_departures (duration : UInt64) (r : TypologyResult) :
    (departures routes c counts duration r).map Send.ruling = rulings routes r := by
  simp only [departures, rulings]
  cases hd : routes.define r.id r.cfg with
  | error e => rfl
  | ok found =>
    cases found with
    | none => rfl
    | some d =>
      dsimp only
      rw [sends_scoredBlock, List.map_append]
      congr 1
      split <;> rfl

/-- Routing comes to the rulings of the reports that are ready, in their order. -/
theorem map_ruling_route (reports : List TypologyResult) :
    (Effect.sends (route routes c counts reports).effects).map Send.ruling =
      (reports.filter (isReady c.networkMap)).flatMap (rulings routes) :=
  map_sends_route routes c counts (map_ruling_departures routes c counts) reports

end RiskTypology
