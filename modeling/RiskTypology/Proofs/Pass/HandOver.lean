import RiskTypology.Proofs.Pass.Finish
import RiskTypology.Proofs.Routing.Assessment

/-!
# Handing over

Which typologies a pass hands to the default channel. The main statement: exactly those that wait
for the event's rule result, in its version, and whose every rule id has a stored result; each once,
in the order of the first listing that waits for the result. Redelivered and stray results are
stored like all others and change none of this. Each is assessed by what is stored for it.
-/

namespace RiskTypology

/-- What an event has for all its payloads in common. -/
def Event.context (e : Event) : Context := ⟨e.networkMap, e.transaction, e.metadata⟩

namespace Pass

variable {services : Services} {store : Store} {event : Event}

private theorem handedOver_eq (h : (run services store event).outcome.isAborted = false) :
    (run services store event).handedOver =
      (touchedBy event.networkMap event.ruleResult).filter fun key ↦
        RuleResult.haveAll (gathered services store event)
          (event.networkMap.requiredRuleIds key.1 key.2) := by
  obtain ⟨after, hr⟩ := run_of_not_aborted services store event h
  rw [hr, handedOver_finish]

/-- A pass hands over the typologies that wait for its rule result and have all their results. -/
theorem mem_handedOver (h : (run services store event).outcome.isAborted = false)
    {key : String × String} :
    key ∈ (run services store event).handedOver ↔
      event.networkMap.WaitsFor key event.ruleResult.id event.ruleResult.cfg ∧
        RuleResult.haveAll (gathered services store event)
          (event.networkMap.requiredRuleIds key.1 key.2) = true := by
  rw [handedOver_eq h, List.mem_filter, NetworkMap.mem_touchedBy]

/-- A pass hands over no typology twice. -/
theorem nodup_handedOver (h : (run services store event).outcome.isAborted = false) :
    (run services store event).handedOver.Nodup := by
  rw [handedOver_eq h]
  exact (event.networkMap.nodup_touchedBy _).filter _

/-- A pass hands over typologies in the order of the first listing that waits for its result. -/
theorem pairwise_handedOver (h : (run services store event).outcome.isAborted = false) :
    (run services store event).handedOver.Pairwise fun a b ↦
      event.networkMap.firstRequiring event.ruleResult a <
        event.networkMap.firstRequiring event.ruleResult b := by
  rw [handedOver_eq h]
  exact (event.networkMap.pairwise_touchedBy _).filter _

/-- The assessments handed to the default channel, in order. -/
def assessments (p : Pass) : List Assessment :=
  (Effect.defaultPayloads p.effects).map (·.typologyResult.assessment)

/-- The assessments handed to a named channel, in order. -/
def assessmentsFor (channel : String) (p : Pass) : List Assessment :=
  (Effect.payloadsFor channel p.effects).map (·.typologyResult.assessment)

/-- Each typology a pass hands over is assessed by what is gathered for it. -/
theorem assessments_run (h : (run services store event).outcome.isAborted = false) :
    (run services store event).assessments =
      (run services store event).handedOver.map fun key ↦
        assess services.routes.define
          (reported event.networkMap (gathered services store event) key) := by
  rw [handedOver_eq h]
  obtain ⟨after, hr⟩ := run_of_not_aborted services store event h
  rw [hr, assessments, Effect.defaultPayloads, sends_finish, ← Effect.defaultPayloads, routed,
    assessments_route, ready_aggregate, List.map_map]
  rfl

/-- Of the typologies a pass hands over those that interdict go to the interdiction channel too. -/
theorem assessmentsFor_run (h : (run services store event).outcome.isAborted = false) :
    (run services store event).assessmentsFor services.routes.interdictionChannel =
      ((run services store event).handedOver.filter fun key ↦
        interdicts services.routes.define
          (reported event.networkMap (gathered services store event) key)).map fun key ↦
            assess services.routes.define
              (reported event.networkMap (gathered services store event) key) := by
  rw [handedOver_eq h]
  obtain ⟨after, hr⟩ := run_of_not_aborted services store event h
  rw [hr, assessmentsFor, Effect.payloadsFor, sends_finish, ← Effect.payloadsFor, routed,
    interdictions_route, ready_aggregate, List.filter_map, List.map_map]
  rfl

/-- Everything a pass sends is the report on what is gathered for a typology, as it leaves. -/
theorem departure_of_mem_run {s : Send} (hs : s ∈ Effect.sends (run services store event).effects) :
    (run services store event).outcome.counts =
        some (counts event (gathered services store event)) ∧
      ∃ key, Departure services.routes event.context (counts event (gathered services store event))
        (reported event.networkMap (gathered services store event) key) s := by
  obtain ha | ha := Bool.eq_false_or_eq_true (run services store event).outcome.isAborted
  · rw [sends_of_aborted ha] at hs
    cases hs
  · obtain ⟨after, hr⟩ := run_of_not_aborted services store event ha
    rw [hr] at hs ⊢
    refine ⟨rfl, ?_⟩
    rw [sends_finish, routed] at hs
    obtain ⟨r, hmem, hready, h⟩ := departure_of_mem_route hs
    have hm := List.mem_filter.mpr ⟨hmem, hready⟩
    rw [ready_aggregate, List.mem_map] at hm
    obtain ⟨key, -, rfl⟩ := hm
    exact ⟨key, h⟩

/-- Everything a pass sends carries what its event has for all payloads in common. -/
theorem carried_run (h : (run services store event).outcome.isAborted = false) :
    ∀ s ∈ Effect.sends (run services store event).effects, event.context.Carried s := by
  obtain ⟨after, hr⟩ := run_of_not_aborted services store event h
  rw [hr, sends_finish, routed]
  exact carried_route services.routes event.context _ _

/-- A typology leaves on the default channel exactly when it waits for the event's rule result, in
its version, and every rule id of each of its listings is among those stored for the transaction;
it leaves once, and typologies leave in the order of the first listing that waits for the result. -/
theorem handedOver_exactly_ready (services : Services) (store : Store) (event : Event)
    (h : (run services store event).outcome.isAborted = false) :
    (∀ id cfg, (id, cfg) ∈ (run services store event).handedOver ↔
      (∃ t ∈ event.networkMap.listings id cfg, ∃ rule ∈ t.rules,
        rule.id = event.ruleResult.id ∧ rule.cfg = event.ruleResult.cfg) ∧
      ∀ t ∈ event.networkMap.listings id cfg, ∀ rule ∈ t.rules,
        ∃ r ∈ gathered services store event, r.id = rule.id) ∧
    (∀ key ∈ (run services store event).handedOver,
      (run services store event).handedOver.count key = 1) ∧
    (run services store event).handedOver.Pairwise fun a b ↦
      event.networkMap.firstRequiring event.ruleResult a <
        event.networkMap.firstRequiring event.ruleResult b := by
  refine ⟨?_, ?_, pairwise_handedOver h⟩
  · intro id cfg
    rw [mem_handedOver h, NetworkMap.requiredRuleIds, NetworkMap.haveAll_ruleIds]
    exact Iff.rfl
  · intro key hk
    rw [(nodup_handedOver h).count, if_pos hk]

private def overlapping : NetworkMap :=
  .ofTypologies [⟨"T", "1", [⟨"A", "1"⟩]⟩, ⟨"U", "1", [⟨"A", "1"⟩, ⟨"B", "1"⟩]⟩]

private def onceDelivered : Store :=
  (run Services.plain {} (.ofRule overlapping "m" "A" "1")).store

/-- A redelivered result: the typology that waits for nothing else leaves again, the one that waits
for another result still does not. -/
theorem handedOver_redelivered :
    (run Services.plain onceDelivered (.ofRule overlapping "m" "A" "1")).outcome.isAborted = false ∧
      ("T", "1") ∈
        (run Services.plain onceDelivered (.ofRule overlapping "m" "A" "1")).handedOver ∧
      ("U", "1") ∉
        (run Services.plain onceDelivered (.ofRule overlapping "m" "A" "1")).handedOver := by
  have h : (run Services.plain onceDelivered
      (.ofRule overlapping "m" "A" "1")).outcome.isAborted = false := by decide
  obtain ⟨hmem, -⟩ :=
    handedOver_exactly_ready Services.plain onceDelivered (.ofRule overlapping "m" "A" "1") h
  refine ⟨h, (hmem "T" "1").mpr (by decide), ?_⟩
  intro hu
  exact absurd ((hmem "U" "1").mp hu) (by decide)

end Pass
end RiskTypology
