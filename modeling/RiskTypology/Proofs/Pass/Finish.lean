import RiskTypology.Pass
import RiskTypology.Proofs.Accumulator.Log
import RiskTypology.Proofs.Readiness

/-!
# What a pass comes to

A pass that is not aborted is determined by what is gathered: it hands over the touched typologies
that are ready, and cleans up when the counts are complete and the store deletes.
-/

namespace RiskTypology.Pass

/-- The typologies handed to the default channel, by id and version, in order. -/
def handedOver (p : Pass) : List (String × String) :=
  (Effect.defaultPayloads p.effects).map (·.typologyResult.key)

/-- The rule results stored under the event's key once its own has been appended. -/
def gathered (services : Services) (store : Store) (event : Event) : List RuleResult :=
  (store.save services.store services.now event.cacheKey event.ruleResult).1.results event.cacheKey

/-- The counts of an event whose results are gathered. -/
def counts (event : Event) (gathered : List RuleResult) : RuleCounts :=
  ⟨RuleResult.distinctCount gathered, event.networkMap.ruleCount⟩

/-- What the routing of a pass does with the reports on the typologies that its event touches. -/
def routed (routes : Routes) (event : Event) (results : List RuleResult) : Routed :=
  route routes ⟨event.networkMap, event.transaction, event.metadata⟩ (counts event results)
    (aggregate event.networkMap results event.ruleResult).results

end RiskTypology.Pass

namespace RiskTypology.PassOn

variable {σ : Type} (services : ServicesOn σ) (store : σ) (event : Event)
  (results : List RuleResult)

/-- How a pass ends: the store after it, whether it cleaned up, and what it tells of that. -/
def ending : σ × Bool × List Effect :=
  if (Pass.counts event results).isComplete then cleanUp services store event.cacheKey
  else (store, false, [])

/-- A finished pass has routed what its event touches and then ends, whatever its store is. -/
theorem finish_eq :
    finish services store event results =
      ⟨⟨event.cacheKey, some (Pass.counts event results),
          (aggregate event.networkMap results event.ruleResult).results.length,
          (Pass.routed services.routes event results).last,
          (ending services store event results).2.1⟩,
        (ending services store event results).1,
        (Pass.routed services.routes event results).effects ++
          (ending services store event results).2.2⟩ := rfl

end RiskTypology.PassOn

namespace RiskTypology.Pass

variable (services : Services) (store : Store) (event : Event) (results : List RuleResult)

/-- How a pass ends: the store after it, whether it cleaned up, and what it tells of that. -/
def ending : Store × Bool × List Effect := PassOn.ending services.on store event results

/-- A pass ends by cleaning up if its counts are complete. -/
theorem ending_eq :
    ending services store event results =
      if (counts event results).isComplete then cleanUp services store event.cacheKey
      else (store, false, []) := rfl

/-- A finished pass has routed what its event touches and then ends. -/
theorem finish_eq :
    finish services store event results =
      ⟨⟨event.cacheKey, some (counts event results),
          (aggregate event.networkMap results event.ruleResult).results.length,
          (routed services.routes event results).last, (ending services store event results).2.1⟩,
        (ending services store event results).1,
        (routed services.routes event results).effects ++
          (ending services store event results).2.2⟩ := rfl

/-- A pass ends by deleting the entry if its counts are complete and the store deletes, and leaves
the store as it is otherwise; either way it sends nothing more. -/
theorem ending_cases :
    (ending services store event results =
        (store.delete event.cacheKey, true, [.counted .cleanups]) ∧
        (counts event results).isComplete = true ∧ services.store.deleteError = none) ∨
      (∃ tail, ending services store event results = (store, false, tail) ∧
        Effect.sends tail = [] ∧
        ¬ ((counts event results).isComplete = true ∧ services.store.deleteError = none)) := by
  cases hc : (counts event results).isComplete with
  | false => exact .inr ⟨[], by rw [ending_eq, hc, if_neg Bool.false_ne_true], rfl, by simp⟩
  | true =>
    rw [ending_eq, hc, if_pos rfl, cleanUp_eq, Store.remove_eq_tryDelete]
    cases hd : services.store.deleteError with
    | none => exact .inl ⟨rfl, rfl, rfl⟩
    | some error => exact .inr ⟨_, rfl, rfl, by simp⟩

/-- A finished pass is not aborted. -/
theorem isAborted_finish : (finish services store event results).outcome.isAborted = false := rfl

/-- A finished pass cleans up exactly when its counts are complete and the store deletes. -/
theorem cleanedUp_finish :
    (finish services store event results).outcome.cleanedUp = true ↔
      (counts event results).isComplete = true ∧ services.store.deleteError = none := by
  rw [finish_eq]
  obtain ⟨he, h⟩ | ⟨tail, he, -, h⟩ := ending_cases services store event results
  · rw [he]
    simp [h]
  · rw [he]
    simpa using h

/-- Cleaning up deletes the entry of the event's key. -/
theorem store_finish_of_cleanedUp
    (h : (finish services store event results).outcome.cleanedUp = true) :
    (finish services store event results).store = store.delete event.cacheKey := by
  rw [finish_eq] at h
  rw [finish_eq]
  obtain ⟨he, -⟩ | ⟨tail, he, -⟩ := ending_cases services store event results
  · rw [he]
  · rw [he] at h
    cases h

/-- Without cleaning up the store stays as it is. -/
theorem store_finish_of_not_cleanedUp
    (h : (finish services store event results).outcome.cleanedUp = false) :
    (finish services store event results).store = store := by
  rw [finish_eq] at h
  rw [finish_eq]
  obtain ⟨he, -⟩ | ⟨tail, he, -⟩ := ending_cases services store event results
  · rw [he] at h
    cases h
  · rw [he]

/-- A finished pass sends what its routing sends. -/
theorem sends_finish :
    Effect.sends (finish services store event results).effects =
      Effect.sends (routed services.routes event results).effects := by
  have hs : Effect.sends (ending services store event results).2.2 = [] := by
    obtain ⟨he, -⟩ | ⟨tail, he, hs, -⟩ := ending_cases services store event results
    · rw [he]
      rfl
    · rw [he, hs]
  rw [finish_eq, Effect.sends_append, hs, List.append_nil]

/-- A finished pass hands over the touched typologies whose every rule id has a result. -/
theorem handedOver_finish :
    (finish services store event results).handedOver =
      (touchedBy event.networkMap event.ruleResult).filter fun key ↦
        RuleResult.haveAll results (event.networkMap.requiredRuleIds key.1 key.2) := by
  rw [handedOver, Effect.defaultPayloads, sends_finish, ← Effect.defaultPayloads, routed,
    map_key_defaultPayloads_route]
  exact map_key_ready_aggregate _ _ _

/-- A pass that is not aborted finishes with everything stored under its key. -/
theorem run_of_not_aborted (h : (run services store event).outcome.isAborted = false) :
    ∃ after, run services store event =
      finish services after event (gathered services store event) := by
  rw [run_eq] at h ⊢
  split at h
  · next after results hs =>
    rw [gathered, hs]
    refine ⟨after, ?_⟩
    rw [Store.results_of_save hs]
  · cases h
  · cases h

variable {services store event} in
/-- A pass that is aborted sends nothing. -/
theorem sends_of_aborted (h : (run services store event).outcome.isAborted = true) :
    Effect.sends (run services store event).effects = [] := by
  rw [run_eq] at h ⊢
  split at h
  · cases h
  · rfl
  · rfl

variable {services store event} in
/-- Only a pass that can delete cleans up. -/
theorem deleteError_of_cleanedUp (h : (run services store event).outcome.cleanedUp = true) :
    services.store.deleteError = none := by
  rw [run_eq] at h
  split at h
  · exact ((cleanedUp_finish _ _ _ _).mp h).2
  · cases h
  · cases h

/-- The store once the event's rule result has been appended. -/
def appended : Store :=
  store.append services.now event.cacheKey (StoredResult.toJson ⟨event.ruleResult⟩)

section

variable {services}

/-- If the store appends nothing a pass is aborted and leaves the store as it is. -/
theorem run_of_not_appending (h : services.store.append ≠ .works) :
    ∃ notice, run services store event = ⟨.aborted event.cacheKey, store, [.told notice]⟩ := by
  rw [run_eq, Store.save_eq_appendAndList]
  unfold Store.appendAndList
  cases hm : services.store.append with
  | works => exact absurd hm h
  | answersNothing => exact ⟨_, rfl⟩
  | fails error => exact ⟨_, rfl⟩

variable {store event}

/-- If some record cannot be read a pass is aborted once it has appended its own. -/
theorem run_of_unreadable (h : services.store.append = .works) {fault : Fault}
    (hd : Store.decodeAll ((appended services store event).records event.cacheKey) =
      .error fault) :
    ∃ notice, run services store event =
      ⟨.aborted event.cacheKey, appended services store event, [.told notice]⟩ := by
  rw [run_eq, Store.save_eq_appendAndList]
  unfold Store.appendAndList
  rw [appended] at hd
  simp only [h, hd]
  exact ⟨_, rfl⟩

variable {results} in
/-- If all records can be read a pass finishes with what they hold. -/
theorem run_of_readable (h : services.store.append = .works)
    (hd : Store.decodeAll ((appended services store event).records event.cacheKey) =
      .ok results) :
    run services store event = finish services (appended services store event) event results := by
  rw [run_eq, Store.save_eq_appendAndList]
  unfold Store.appendAndList
  rw [appended] at hd
  simp only [h, hd]
  rfl

end

end RiskTypology.Pass

namespace RiskTypology

/-- Services that know no definition and where nothing fails. -/
def Services.plain : Services :=
  { routes := ⟨fun _ _ ↦ .ok none, "cms", fun _ _ ↦ none, fun _ ↦ 0⟩ }

/-- A map with all its typologies in one channel. -/
def NetworkMap.ofTypologies (typologies : List Typology) : NetworkMap :=
  { messages := [⟨"004@1.0.0", "1.0.0", "pacs.002.001.12", [⟨"001@1.0.0", "1.0.0", typologies⟩]⟩] }

/-- An event with the outcome of a rule and nothing beside it. -/
def Event.ofRule (map : NetworkMap) (messageId id cfg : String) : Event :=
  ⟨map, { id := id, cfg := cfg, subRuleRef := ".01" },
    ⟨"pacs.002.001.12", ⟨⟨messageId, []⟩, []⟩, []⟩, none⟩

end RiskTypology
