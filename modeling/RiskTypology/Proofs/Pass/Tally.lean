import RiskTypology.Proofs.Pass.Disclosure
import RiskTypology.Proofs.Routing.Failures

/-!
# What a pass counts

The counts of a pass tell what it sent and how it ended. Alerts are counted where a verdict is come
to, interdictions as well, evaluations after a report is scored, and the sends follow later; still
every pass counts as many of each as it has sends of the kind, whatever fails. Its store may be of
any kind: only what the store answers matters, and a pass either is aborted on that or finishes with
it.
-/

namespace RiskTypology

/-- Whether a send takes a report that needs review to the default channel. -/
def Send.alerting (s : Send) : Bool := s.channels.isEmpty && s.payload.typologyResult.review

/-- Whether a send goes to the interdiction channel. -/
def Routes.interdicting (routes : Routes) (s : Send) : Bool :=
  s.channels == [routes.interdictionChannel]

/-- Whether a send takes a report with a definition to the default channel. -/
def Routes.evaluating (routes : Routes) (s : Send) : Bool :=
  s.channels.isEmpty && routes.definesFor s

namespace Effect

/-- Effects whose counts tell what they send, and that a clean-up is counted so many times. -/
structure Tallied (routes : Routes) (cleanups : Nat) (effects : List Effect) : Prop where
  alerts : count effects .alerts = (sends effects).countP Send.alerting
  interdictions : count effects .interdictions = (sends effects).countP routes.interdicting
  evaluations : count effects .evaluations = (sends effects).countP routes.evaluating
  cleanups : count effects .cleanups = cleanups
  reviewed : ∀ s ∈ sends effects, routes.interdicting s = true →
    s.payload.typologyResult.review = true

/-- Sends alone send what they are and count nothing. -/
theorem sends_map_sent (ss : List Send) : sends (ss.map .sent) = ss := by
  simp [sends, List.filterMap_map]

/-- Sends alone count nothing. -/
theorem count_map_sent (ss : List Send) (m : Metric) : count (ss.map .sent) m = 0 := by
  simp [count, metrics, List.filterMap_map]

/-- What is counted alone counts what it is. -/
theorem count_map_counted (ms : List Metric) (m : Metric) :
    count (ms.map .counted) m = ms.count m := by
  simp [count, metrics, List.filterMap_map]

namespace Tallied

variable {routes : Routes} {n n' : Nat} {effects effects' : List Effect}

/-- No effects tally. -/
theorem nil : Tallied routes 0 [] := ⟨rfl, rfl, rfl, rfl, by simp [sends]⟩

/-- A notice tallies. -/
theorem told (notice : Notice) : Tallied routes 0 [.told notice] :=
  ⟨rfl, rfl, rfl, rfl, by simp [sends]⟩

/-- A counted clean-up tallies as one. -/
theorem cleanup : Tallied routes 1 [.counted .cleanups] := ⟨rfl, rfl, rfl, rfl, by simp [sends]⟩

/-- Tallies of a longer run add up. -/
theorem append (h : Tallied routes n effects) (h' : Tallied routes n' effects') :
    Tallied routes (n + n') (effects ++ effects') where
  alerts := by rw [count_append, sends_append, List.countP_append, h.alerts, h'.alerts]
  interdictions := by
    rw [count_append, sends_append, List.countP_append, h.interdictions, h'.interdictions]
  evaluations := by
    rw [count_append, sends_append, List.countP_append, h.evaluations, h'.evaluations]
  cleanups := by rw [count_append, h.cleanups, h'.cleanups]
  reviewed := by
    intro s hs hc
    rw [sends_append] at hs
    rcases List.mem_append.mp hs with hs | hs
    · exact h.reviewed s hs hc
    · exact h'.reviewed s hs hc

/-- Effects tally if they do apart from failures. -/
theorem of_undisturbed (h : Tallied routes n (undisturbed effects)) : Tallied routes n effects := by
  obtain ⟨ha, hi, he, hc, hr⟩ := h
  rw [sends_undisturbed, count_undisturbed (by decide)] at ha hi he
  rw [count_undisturbed (by decide)] at hc
  rw [sends_undisturbed] at hr
  exact ⟨ha, hi, he, hc, hr⟩

/-- What blocks do one after the other tallies if each does. -/
theorem flatMap {blocks : List Block} {f : Block → List Effect}
    (h : ∀ b ∈ blocks, Tallied routes 0 (f b)) : Tallied routes 0 (blocks.flatMap f) := by
  induction blocks with
  | nil => exact nil
  | cons b rest ih =>
    rw [List.forall_mem_cons] at h
    rw [List.flatMap_cons]
    exact h.1.append (ih h.2)

end Tallied
end Effect

section

variable (routes : Routes) (c : Context) (counts : RuleCounts)

/-- Scoring counts what the verdict counts as, and one evaluation. -/
theorem count_scoringEffects (e : Evaluation) (t : Thresholds) (m : Metric) :
    Effect.count (scoringEffects e t) m =
      (Verdict.ofScore e.value t).metrics.count m + [Metric.evaluations].count m := by
  have hunresolved : Effect.count
      (if e.isNumeric then [] else [.told (.notNumeric e.unresolved)]) m = 0 := by
    split <;> rfl
  have hthreshold : Effect.count
      (if t.alert.isSome then [] else [.told .alertThresholdMissing]) m = 0 := by
    split <;> rfl
  rw [scoringEffects, Effect.count_append, Effect.count_append, Effect.count_append, hunresolved,
    hthreshold, Effect.count_map_counted]
  simp [Effect.count, Effect.metrics]

variable {routes counts} {duration : UInt64} {r : TypologyResult} {b : Block}

/-- What a block does tallies if what it counts before its sends tells what it sends. -/
private theorem tallied_of_before (hb : b.Proper)
    (ha : Effect.count b.before .alerts = b.sends.countP Send.alerting)
    (hi : Effect.count b.before .interdictions = b.sends.countP routes.interdicting)
    (he : Effect.count b.before .evaluations = b.sends.countP routes.evaluating)
    (hc : Effect.count b.before .cleanups = 0)
    (hr : ∀ s ∈ b.sends, routes.interdicting s = true →
      s.payload.typologyResult.review = true) :
    Effect.Tallied routes 0 (b.before ++ b.sends.map .sent) := by
  have hsends : Effect.sends (b.before ++ b.sends.map .sent) = b.sends := by
    rw [Effect.sends_append, hb.quiet, Effect.sends_map_sent, List.nil_append]
  have hcount (m : Metric) :
      Effect.count (b.before ++ b.sends.map .sent) m = Effect.count b.before m := by
    rw [Effect.count_append, Effect.count_map_sent, Nat.add_zero]
  constructor <;> simp only [hsends, hcount] <;> assumption

/-- Whether a scored report needs review and whether it goes to the interdiction channel follow from
the verdict that is counted. -/
private theorem tallied_scoredBlock {d : Definition}
    (hd : routes.define r.id r.cfg = .ok (some d))
    (hb : (scoredBlock routes c counts r d duration).Proper) :
    Effect.Tallied routes 0 ((scoredBlock routes c counts r d duration).before ++
      (scoredBlock routes c counts r d duration).sends.map .sent) := by
  let v := Verdict.ofScore (d.score r.ruleResults).value d.workflow
  let left : Send := ⟨[], { c.payload (r.scored d duration) with transaction := c.outgoing counts }⟩
  let diverted : Send := ⟨[routes.interdictionChannel], c.payload (r.scored d duration)⟩
  have hcount (m : Metric) : Effect.count (scoredBlock routes c counts r d duration).before m =
      v.metrics.count m + [Metric.evaluations].count m := count_scoringEffects _ _ m
  have hsends : (scoredBlock routes c counts r d duration).sends =
      (if v = .interdict then [diverted] else []) ++ [left] :=
    sends_scoredBlock routes c counts r d duration
  have hleft : left.alerting = v.needsReview ∧ routes.interdicting left = false ∧
      routes.evaluating left = true := ⟨rfl, rfl, Routes.defines_of_define hd⟩
  have hdiverted : diverted.alerting = false ∧ routes.interdicting diverted = true ∧
      routes.evaluating diverted = false := ⟨rfl, beq_self_eq_true _, rfl⟩
  have hreview : diverted.payload.typologyResult.review = v.needsReview := rfl
  cases hv : v <;> rw [hv] at hcount hsends hleft hreview <;>
    refine tallied_of_before hb ?_ ?_ ?_ ?_ ?_ <;>
    simp [hcount, hsends, hleft, hdiverted, hreview, Verdict.metrics, Verdict.needsReview]

/-- What the block of a report does tallies, if the report does not ask for review before it is
scored. -/
theorem tallied_block? (hr : r.review = false) (h : block? routes c counts duration r = some b) :
    Effect.Tallied routes 0 (b.before ++ b.sends.map .sent) := by
  have hb : b.Proper := (block?_spec routes c counts h).1
  obtain ⟨d, hd, rfl⟩ | ⟨hd, notice, rfl⟩ := block?_cases routes c counts h
  · exact tallied_scoredBlock c hd hb
  · let left : Send := ⟨[], c.payload { r with duration := some duration }⟩
    have hsends : (unscoredBlock c r duration notice).sends = [left] := rfl
    have hleft : left.alerting = false ∧ routes.interdicting left = false ∧
        routes.evaluating left = false := ⟨hr, rfl, Routes.defines_eq_false_iff.mpr hd⟩
    have hcount (m : Metric) : Effect.count (unscoredBlock c r duration notice).before m = 0 := rfl
    refine tallied_of_before hb ?_ ?_ ?_ ?_ ?_ <;> simp [hcount, hsends, hleft]

variable (routes counts) in
/-- What routing does tallies, if no report asks for review before it is scored. -/
theorem tallied_route {reports : List TypologyResult} (hr : ∀ r ∈ reports, r.review = false) :
    Effect.Tallied routes 0 (route routes c counts reports).effects := by
  apply Effect.Tallied.of_undisturbed
  rw [route_eq, undisturbed_perform _ _ (ofFailure_before_blocksFrom routes c counts 0 reports)]
  apply Effect.Tallied.flatMap
  intro b hb
  obtain ⟨_, r, hmem, h⟩ := block?_of_mem_blocksFrom routes c counts hb
  exact tallied_block? c (hr r hmem) h

end

/-- No report asks for review before it is scored. -/
theorem review_of_mem_aggregate {map : NetworkMap} {gathered : List RuleResult} {new : RuleResult} :
    ∀ r ∈ (aggregate map gathered new).results, r.review = false := by
  intro r hr
  obtain ⟨key, -, h⟩ := List.mem_filterMap.mp hr
  unfold report? at h
  split at h
  · cases h
  · cases h
    rfl

end RiskTypology
