import RiskTypology.Proofs.Accumulator.Bare
import RiskTypology.Proofs.Run.Isolation

/-!
# Data that decides nothing

What events carry along decides nothing. A pass on the bare store and the bare event decides what
the pass on the store and the event does, so runs whose events have the same bare forms decide the
same, turn by turn.
-/

namespace RiskTypology

/-- What a pass decides: how it ends, the rulings it hands out, in order, and the outcomes it leaves
in the store. -/
structure Decision where
  outcome : Outcome
  rulings : List Ruling
  store : Store

namespace Pass

/-- The decision of a pass. -/
def decision (p : Pass) : Decision :=
  ⟨p.outcome.withoutPayload, (Effect.sends p.effects).map Send.ruling, p.store.bare⟩

/-- Failures do not show in what is decided. -/
theorem decision_eq_of_sameButFailures {p p' : Pass} (h : p.SameButFailures p') :
    p.decision = p'.decision := by
  have hrulings : (Effect.sends p.effects).map Send.ruling =
      (Effect.sends p'.effects).map Send.ruling := h.map_sends_eq fun _ ↦ rfl
  rw [decision, decision, h.withoutPayload_eq, hrulings, h.store]

variable (services : Services) (store : Store) (event : Event) (results : List RuleResult)

/-- Bare results count as they did. -/
theorem counts_bare : counts event.bare (results.map .bare) = counts event results := by
  simp [counts, RuleResult.distinctCount, Event.bare]

/-- A bare pass ends as it did and leaves the bare store. -/
theorem ending_bare :
    ending services store.bare event.bare (results.map .bare) =
      ((ending services store event results).1.bare, (ending services store event results).2) := by
  rw [ending_eq, ending_eq, counts_bare]
  split
  · rw [cleanUp_eq, cleanUp_eq, Store.remove_eq_tryDelete, Store.remove_eq_tryDelete,
      event.cacheKey_bare]
    cases services.store.deleteError with
    | none =>
      simp only [Store.tryDelete, store.delete_bare]
    | some error => rfl
  · rfl

/-- A finished pass decides the same on bare data. -/
theorem decision_finish_bare :
    (finish services store.bare event.bare (results.map .bare)).decision =
      (finish services store event results).decision := by
  have hreports :
      (aggregate event.bare.networkMap (results.map .bare) event.bare.ruleResult).results =
        (aggregate event.networkMap results event.ruleResult).results.map .bare :=
    aggregate_bare event.networkMap results event.ruleResult
  have houtcome :
      (finish services store.bare event.bare (results.map .bare)).outcome.withoutPayload =
        (finish services store event results).outcome.withoutPayload := by
    rw [finish_eq, finish_eq, counts_bare, ending_bare, hreports, List.length_map]
    rfl
  have hrulings :
      (Effect.sends (finish services store.bare event.bare (results.map .bare)).effects).map
          Send.ruling =
        (Effect.sends (finish services store event results).effects).map Send.ruling := by
    rw [sends_finish, sends_finish, routed, routed, hreports]
    exact map_ruling_route_bare _ _ _ rfl _
  have hstore :
      (finish services store.bare event.bare (results.map .bare)).store.bare =
        (finish services store event results).store.bare := by
    rw [finish_eq, finish_eq, ending_bare, Store.bare_bare]
  rw [decision, decision, houtcome, hrulings, hstore]

/-- An aborted pass decides the same on bare data. -/
theorem decision_aborted_bare (key : String) (after : Store) (notice : Notice) :
    decision ⟨.aborted key, after.bare, [.told notice]⟩ =
      decision ⟨.aborted key, after, [.told notice]⟩ := by
  simp [decision]

/-- A pass decides the same on bare data. -/
theorem decision_run_bare :
    (run services store.bare event.bare).decision = (run services store event).decision := by
  have hresult : event.bare.ruleResult = event.ruleResult.bare := rfl
  rw [run_eq, run_eq, event.cacheKey_bare, hresult, Store.save_bare]
  cases store.save services.store services.now event.cacheKey event.ruleResult with
  | mk after answer =>
    rcases answer with e | _ | gathered
    · exact decision_aborted_bare _ after _
    · exact decision_aborted_bare _ after _
    · exact decision_finish_bare services after event gathered

end Pass

/-- What events carry along decides nothing. Runs whose events have the same bare forms, with
services that differ at most in which sends fail and in how long evaluations take, decide the same
turn by turn: they come to the same counts, touch and clean up the same and hand out the same
rulings in the same order. -/
theorem decisions_of_bare_events (store : Store) {inputs inputs' : List (Services × Event)}
    (h : List.Forall₂ (fun i i' ↦ i.1.SameButSends i'.1 ∧ i.2.bare = i'.2.bare) inputs inputs') :
    List.Forall₂ (fun t t' ↦ t.pass.decision = t'.pass.decision) (turns store inputs)
      (turns store inputs') := by
  refine forall₂_turns (fun s s' ↦ s.bare = s'.bare) (fun p p' ↦ p.decision = p'.decision) ?_ rfl h
  rintro ⟨services, event⟩ ⟨services', event'⟩ store store' ⟨hs, he⟩ hst
  have hstore : store.bare = store'.bare := hst
  have hevent : event.bare = event'.bare := he
  have hp : (Pass.run services store event).decision =
      (Pass.run services' store' event').decision :=
    calc (Pass.run services store event).decision
      _ = (Pass.run services store.bare event.bare).decision :=
        (Pass.decision_run_bare services store event).symm
      _ = (Pass.run services store'.bare event'.bare).decision := by
        rw [hevent, hstore]
      _ = (Pass.run services store' event').decision :=
        Pass.decision_run_bare services store' event'
      _ = (Pass.run services' store' event').decision :=
        Pass.decision_eq_of_sameButFailures (Pass.run_sameButFailures hs store' event')
  exact ⟨hp, congrArg Decision.store hp⟩

private def scoringBoth (deliver : Nat → Send → Option String) : Services :=
  { Services.plain with
    routes := ⟨fun id cfg ↦ .ok (some
        { id := id, cfg := cfg, rules := [⟨"A", "1", "a", [⟨".01", 2.0⟩]⟩],
          expression := .term "a", workflow := { alert := some 1.0, interdiction := some 5.0 } }),
      "cms", deliver, fun _ ↦ 0⟩ }

private def unladen (id : String) : Event :=
  .ofRule (.ofTypologies [⟨"T", "1", [⟨"A", "1"⟩, ⟨"B", "1"⟩]⟩]) "m" id "1"

private def laden (id : String) : Event where
  networkMap :=
    { active := true, cfg := "2", messages := [⟨"008", "2", "pacs.008",
        [⟨"002", "2", [⟨"T", "1", [⟨"A", "1"⟩, ⟨"B", "1"⟩]⟩]⟩]⟩] }
  ruleResult :=
    { id := id, cfg := "1", subRuleRef := ".01", result := true, reason := some "late",
      duration := some 7, weight := some 9.0 }
  transaction :=
    ⟨"pacs.008", ⟨⟨"m", [("NbOfTxs", .int 1)]⟩, [("StsId", .str "s")]⟩, [("Amt", .int 5)]⟩
  metadata := some { traceParent := some "00-01" }

/-- Two rules reported with nothing beside their outcomes, and then with weights, a reason, another
map header and a full transaction, while every send fails: the typology leaves for review in both
runs, and in neither is it interdicted, although the weights that came along would have done that.
-/
theorem decisions_of_laden_events :
    let plain := [(scoringBoth fun _ _ ↦ none, unladen "A"),
      (scoringBoth fun _ _ ↦ none, unladen "B")]
    let full := [(scoringBoth fun _ _ ↦ some "down", laden "A"),
      (scoringBoth fun _ _ ↦ some "down", laden "B")]
    List.Forall₂ (fun i i' ↦ i.1.SameButSends i'.1 ∧ i.2.bare = i'.2.bare) plain full ∧
      List.Forall₂ (fun t t' ↦ t.pass.decision = t'.pass.decision) (turns {} plain)
        (turns {} full) ∧
      (turns {} plain).map
          (fun t ↦ t.pass.decision.rulings.map fun r ↦ (r.channels, r.id, r.review)) =
        [[], [([], "T", true)]] := by
  intro plain full
  have h : List.Forall₂ (fun i i' ↦ i.1.SameButSends i'.1 ∧ i.2.bare = i'.2.bare) plain full :=
    .cons ⟨⟨rfl, rfl, rfl, rfl⟩, rfl⟩ (.cons ⟨⟨rfl, rfl, rfl, rfl⟩, rfl⟩ .nil)
  exact ⟨h, decisions_of_bare_events {} h, by decide⟩

end RiskTypology
