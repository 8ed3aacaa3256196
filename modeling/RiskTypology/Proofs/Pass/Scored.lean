import RiskTypology.Proofs.Pass.HandOver

/-!
# Telling scored reports

Whether a report that leaves has been scored is told by its result: it is the mark as long as
nothing has been scored. So a report that leaves without a definition is never taken for a scored
one, and one that leaves with a definition is taken for an unscored one exactly if its score comes
to the mark.
-/

namespace RiskTypology

variable {routes : Routes} {c : Context} {counts : RuleCounts} {r : TypologyResult} {s : Send}

/-- The result of a report that leaves is its score if there is a definition, and stays what it is
otherwise. -/
theorem Departure.result_cases (h : Departure routes c counts r s) :
    (∃ d, routes.define r.id r.cfg = .ok (some d) ∧
        s.payload.typologyResult.result = (d.score r.ruleResults).value) ∨
      routes.defines r.id r.cfg = false ∧ s.payload.typologyResult.result = r.result := by
  cases h with
  | scored duration hd => exact .inl ⟨_, hd, rfl⟩
  | interdicting duration hd => exact .inl ⟨_, hd, rfl⟩
  | unscored duration hd => exact .inr ⟨hd, rfl⟩

namespace Pass

variable {services : Services} {store : Store} {event : Event}

/-- What a pass sends has the score of what is gathered for the typology as its result if there is a
definition, and the mark otherwise. -/
theorem result_of_mem_run (hs : s ∈ Effect.sends (run services store event).effects) :
    let r := s.payload.typologyResult
    (∃ d, services.routes.define r.id r.cfg = .ok (some d) ∧ r.result =
        (d.score (relevant event.networkMap (gathered services store event) r.id r.cfg)).value) ∨
      services.routes.defines r.id r.cfg = false ∧ r.result = unscoredMark := by
  intro r
  obtain ⟨-, key, h⟩ := departure_of_mem_run hs
  have hkey : (r.id, r.cfg) = key := h.key_eq
  subst hkey
  exact h.result_cases

/-- A report that leaves without a definition is told to be unscored. One that leaves with a
definition is told to be scored exactly if the score of what is gathered for it is not the mark. So
the mark tells the two apart exactly if the score of no definition comes to the mark. -/
theorem isScored_sent (services : Services) (store : Store) (event : Event)
    (hs : s ∈ Effect.sends (run services store event).effects) :
    let r := s.payload.typologyResult
    let score (d : Definition) : Float :=
      (d.score (relevant event.networkMap (gathered services store event) r.id r.cfg)).value
    (services.routes.defines r.id r.cfg = false → r.isScored = false) ∧
    (∀ d, services.routes.define r.id r.cfg = .ok (some d) →
      (r.isScored = true ↔ (score d != unscoredMark) = true)) ∧
    ((r.isScored = true ↔ services.routes.defines r.id r.cfg = true) ↔
      ∀ d, services.routes.define r.id r.cfg = .ok (some d) →
        (score d != unscoredMark) = true) := by
  intro r score
  obtain ⟨d, hd, hr⟩ | ⟨hd, hr⟩ := result_of_mem_run hs
  · have hscored : r.isScored = (score d != unscoredMark) := congrArg (· != unscoredMark) hr
    have hknown : services.routes.defines r.id r.cfg = true := Routes.defines_of_define hd
    have hunique : ∀ d', services.routes.define r.id r.cfg = .ok (some d') → d' = d := by
      intro d' hd'
      exact Option.some.inj (Except.ok.inj (hd'.symm.trans hd))
    refine ⟨?_, ?_, ?_⟩
    · intro hn
      rw [hknown] at hn
      cases hn
    · intro d' hd'
      rw [hunique d' hd', hscored]
    · rw [hknown, hscored]
      constructor
      · intro h d' hd'
        rw [hunique d' hd', h]
      · intro h
        exact iff_of_true (h d hd) rfl
  · have hunscored : r.isScored = false := (congrArg (· != unscoredMark) hr).trans (by decide)
    have hnone := Routes.defines_eq_false_iff.mp hd
    refine ⟨fun _ ↦ hunscored, fun d hd' ↦ absurd hd' (hnone d), ?_⟩
    rw [hd, hunscored]
    exact iff_of_true Iff.rfl fun d hd' ↦ absurd hd' (hnone d)

private def scoringServices (expression : Expression) : Services :=
  { Services.plain with
    routes := ⟨fun id cfg ↦ .ok (some
        { id := id, cfg := cfg, rules := [⟨"A", "1", "a", [⟨".01", 2.0⟩]⟩],
          expression := expression, workflow := { alert := some 100.0 } }),
      "cms", fun _ _ ↦ none, fun _ ↦ 0⟩ }

private def soleReport : Event := .ofRule (.ofTypologies [⟨"T", "1", [⟨"A", "1"⟩]⟩]) "m" "A" "1"

/-- A score that is not the mark: the report that leaves is told to be scored. -/
theorem scored_off_mark :
    (Effect.sends (run (scoringServices (.literal 7.0)) {} soleReport).effects).length = 1 ∧
      ∀ s ∈ Effect.sends (run (scoringServices (.literal 7.0)) {} soleReport).effects,
        s.payload.typologyResult.isScored = true := by
  refine ⟨by decide, ?_⟩
  intro s hs
  obtain ⟨-, hscored, -⟩ := isScored_sent _ _ _ hs
  refine (hscored _ rfl).mpr ?_
  change ((7.0 : Float) != unscoredMark) = true
  decide

/-- A score that comes to the mark: there is a definition, and the report that leaves is told to be
unscored. -/
theorem unscored_on_mark :
    ¬ ∀ s ∈ Effect.sends (run (scoringServices (.apply .subtract [.term "a", .literal 3.0])) {}
        soleReport).effects,
      (s.payload.typologyResult.isScored = true ↔
        (scoringServices (.apply .subtract [.term "a", .literal 3.0])).routes.defines
          s.payload.typologyResult.id s.payload.typologyResult.cfg = true) := by
  decide

end Pass
end RiskTypology
