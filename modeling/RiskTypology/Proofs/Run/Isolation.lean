import Mathlib.Data.List.Forall2
import RiskTypology.Proofs.Routing.Failures
import RiskTypology.Proofs.Run.Separation

/-!
# Isolation of failing sends

Runs that differ in nothing but which of their sends fail, with a store of any kind. They hand out
the same payloads in the same order, come to the same outcomes, leave the same stores and count the
same, pass by pass; only the count of failed sends tells them apart, and that is as high as the
number of sends that failed.
-/

namespace RiskTypology

variable {σ : Type}

/-- Services that differ at most in which sends fail and in how long evaluations take. -/
structure ServicesOn.SameButSends (services services' : ServicesOn σ) : Prop where
  define : services.routes.define = services'.routes.define
  interdictionChannel : services.routes.interdictionChannel = services'.routes.interdictionChannel
  store : services.store = services'.store

/-- Services that differ at most in which sends fail and in how long evaluations take. -/
structure Services.SameButSends (services services' : Services) : Prop where
  define : services.routes.define = services'.routes.define
  interdictionChannel : services.routes.interdictionChannel = services'.routes.interdictionChannel
  store : services.store = services'.store
  now : services.now = services'.now

/-- They are such services of the store of interim records. -/
theorem Services.SameButSends.on {services services' : Services}
    (hs : services.SameButSends services') : services.on.SameButSends services'.on where
  define := hs.define
  interdictionChannel := hs.interdictionChannel
  store := by rw [Services.on, Services.on, hs.store, hs.now]

/-- The outcome without its last payload. -/
def Outcome.withoutPayload (o : Outcome) : Outcome := { o with last := none }

namespace PassOn

/-- Passes that differ at most in the failures of their sends and in how long evaluations took. -/
structure SameButFailures (p p' : PassOn σ) : Prop where
  outcome : p.outcome.timeless = p'.outcome.timeless
  store : p.store = p'.store
  sends : (Effect.sends p.effects).map Send.timeless =
    (Effect.sends p'.effects).map Send.timeless
  counts : ∀ m ≠ .dispatchFailures, Effect.count p.effects m = Effect.count p'.effects m

namespace SameButFailures

variable {p p' : PassOn σ} (h : p.SameButFailures p')

include h

/-- Failures do not show in an outcome without its payload. -/
theorem withoutPayload_eq : p.outcome.withoutPayload = p'.outcome.withoutPayload := by
  have ho : p.outcome.timeless.withoutPayload = p'.outcome.timeless.withoutPayload := by
    rw [h.outcome]
  exact ho

/-- Failures show in nothing of the sends in which times do not. -/
theorem map_sends_eq {β : Type} {view : Send → β} (hv : ∀ s, view s.timeless = view s) :
    (Effect.sends p.effects).map view = (Effect.sends p'.effects).map view := by
  have hview : view ∘ Send.timeless = view := funext hv
  rw [← hview, ← List.map_map, h.sends, List.map_map]

end SameButFailures

/-- What is left of the effects apart from failures and times decides what is sent and counted. -/
theorem sameButFailures_of_undisturbed {p p' : PassOn σ}
    (ho : p.outcome.timeless = p'.outcome.timeless) (hst : p.store = p'.store)
    (he : (Effect.undisturbed p.effects).map Effect.timeless =
      (Effect.undisturbed p'.effects).map Effect.timeless) : p.SameButFailures p' where
  outcome := ho
  store := hst
  sends := Effect.map_timeless_sends he
  counts := by
    intro m hm
    rw [← Effect.count_undisturbed hm, ← Effect.count_map_timeless, he, Effect.count_map_timeless,
      Effect.count_undisturbed hm]

section

variable {services services' : ServicesOn σ} (hs : services.SameButSends services') (store : σ)
  (event : Event) (results : List RuleResult)

include hs in
/-- Which sends fail does not show in how a pass ends. -/
theorem ending_eq_of_sameButSends :
    ending services store event results = ending services' store event results := by
  rw [ending, ending, cleanUp, cleanUp, hs.store]

variable (services) in
/-- How a pass ends comes of no failed send, and sends nothing. -/
theorem quiet_ending :
    (∀ e ∈ (ending services store event results).2.2, e.ofFailure = false) ∧
      Effect.sends (ending services store event results).2.2 = [] := by
  rw [ending]
  split
  · rw [cleanUp]
    obtain ⟨after, _ | _⟩ := services.store.remove store event.cacheKey <;>
      exact ⟨List.forall_mem_singleton.mpr rfl, rfl⟩
  · exact ⟨List.forall_mem_nil _, rfl⟩

include hs in
/-- A finished pass is the same but for failures, whichever sends fail. -/
theorem finish_sameButFailures :
    (finish services store event results).SameButFailures
      (finish services' store event results) := by
  rw [finish_eq, finish_eq, ending_eq_of_sameButSends hs]
  apply sameButFailures_of_undisturbed
  · rw [Outcome.timeless, Outcome.timeless, Pass.routed, Pass.routed,
      map_timeless_last_route hs.define hs.interdictionChannel]
  · rfl
  · rw [Effect.undisturbed_append, Effect.undisturbed_append, List.map_append, List.map_append,
      Pass.routed, Pass.routed, undisturbed_route_timeless _ _ hs.define hs.interdictionChannel]

include hs in
/-- A pass is the same but for failures, whichever sends fail. -/
theorem run_sameButFailures :
    (run services store event).SameButFailures (run services' store event) := by
  rw [run, run, hs.store]
  obtain ⟨after, _ | _ | gathered⟩ := services'.store.save store event.cacheKey event.ruleResult
  · exact ⟨rfl, rfl, rfl, fun _ _ ↦ rfl⟩
  · exact ⟨rfl, rfl, rfl, fun _ _ ↦ rfl⟩
  · exact finish_sameButFailures hs after event gathered

variable (services)

/-- A finished pass counts the sends that fail. -/
theorem count_failures_finish :
    Effect.count (finish services store event results).effects .dispatchFailures =
      failures services.routes.deliver 0
        (Effect.sends (finish services store event results).effects) := by
  obtain ⟨hquiet, hsends⟩ := quiet_ending services store event results
  rw [finish_eq, Effect.count_append, Effect.sends_append,
    Effect.count_dispatchFailures_eq_zero hquiet, hsends, Nat.add_zero, List.append_nil,
    Pass.routed, count_failures_route]

/-- A pass counts the sends that fail. -/
theorem count_failures_run :
    Effect.count (run services store event).effects .dispatchFailures =
      failures services.routes.deliver 0 (Effect.sends (run services store event).effects) := by
  rw [run]
  obtain ⟨after, _ | _ | gathered⟩ := services.store.save store event.cacheKey event.ruleResult
  · rfl
  · rfl
  · exact count_failures_finish services after event gathered

end

/-- A pass with the services of an input counts as many failures as it has sends that fail. -/
def CountsFailures (input : ServicesOn σ × Event) (p : PassOn σ) : Prop :=
  Effect.count p.effects .dispatchFailures =
    failures input.1.routes.deliver 0 (Effect.sends p.effects)

/-- Every pass of a run counts as many failures as it has sends that fail. -/
theorem countsFailures_runAll (store : σ) (inputs : List (ServicesOn σ × Event)) :
    List.Forall₂ CountsFailures inputs (runAll store inputs) := by
  induction inputs generalizing store with
  | nil => exact .nil
  | cons input rest ih => exact .cons (count_failures_run input.1 store input.2) (ih _)

/-- Runs of the same events with a store of any kind, which differ in nothing but which sends fail,
and in how long evaluations take, do the same pass by pass but for their failures: they send the
same, come to the same outcomes, leave the same states of the store and count the same. Each pass of
either counts as many failures as it has sends that fail. -/
theorem runAll_of_any_failures (store : σ) {inputs inputs' : List (ServicesOn σ × Event)}
    (h : List.Forall₂ (fun i i' ↦ i.1.SameButSends i'.1 ∧ i.2 = i'.2) inputs inputs') :
    List.Forall₂ SameButFailures (runAll store inputs) (runAll store inputs') ∧
      List.Forall₂ CountsFailures inputs (runAll store inputs) ∧
      List.Forall₂ CountsFailures inputs' (runAll store inputs') := by
  refine ⟨?_, countsFailures_runAll store inputs, countsFailures_runAll store inputs'⟩
  induction h generalizing store with
  | nil => exact .nil
  | @cons input input' rest rest' hi _ ih =>
    obtain ⟨services, event⟩ := input
    obtain ⟨services', event'⟩ := input'
    obtain ⟨hs, he⟩ := hi
    obtain rfl : event = event' := he
    have hp := run_sameButFailures hs store event
    rw [runAll, runAll, hp.store]
    exact .cons hp (ih _)

/-- A store that keeps every record, but answers with an error to the second append and with nothing
to the fourth, and that deletes, but answers with an error to that. -/
private def unreliable : RecordStore (Nat × List (String × Json)) where
  appendAndList := fun (asked, records) key record ↦
    let kept := records ++ [(key, record)]
    let answer :=
      if asked = 1 then .error "down" else if asked = 3 then .ok none
      else .ok (some ((kept.filter (·.1 == key)).map (·.2)))
    ((asked + 1, kept), answer)
  delete := fun (asked, records) key ↦ ((asked, records.filter (·.1 != key)), .error "down")

private def interdictingOn (deliver : Nat → Send → Option String) :
    ServicesOn (Nat × List (String × Json)) where
  routes := ⟨fun id cfg ↦ .ok (some
      { id := id, cfg := cfg, rules := [], expression := .literal 9.0,
        workflow := { interdiction := some 5.0 } }),
    "cms", deliver, fun _ ↦ 0⟩
  store := unreliable

private def lastOfTwo : NetworkMap := .ofTypologies [⟨"T", "1", [⟨"A", "1"⟩, ⟨"B", "1"⟩]⟩]

private def deliveredBy (deliver : Nat → Send → Option String) :
    List (ServicesOn (Nat × List (String × Json)) × Event) :=
  ["A", "B", "A", "B", "B"].map fun id ↦ (interdictingOn deliver, .ofRule lastOfTwo "m" id "1")

/-- A store that keeps and deletes although it answers otherwise, and a typology that interdicts,
once with the first send of each pass failing and once with every send failing: the runs differ in
their failures alone. The record behind the error is found by the third pass, and what the third
pass deletes behind an error is missing in the last. -/
theorem sends_failing_behind_unreliable_store :
    let first := deliveredBy fun number _ ↦ if number = 0 then some "down" else none
    let every := deliveredBy fun _ _ ↦ some "down"
    List.Forall₂ (fun i i' ↦ i.1.SameButSends i'.1 ∧ i.2 = i'.2) first every ∧
      List.Forall₂ SameButFailures (runAll (0, []) first) (runAll (0, []) every) ∧
      (runAll (0, []) first).map (Effect.count ·.effects .dispatchFailures) = [0, 0, 1, 0, 0] ∧
      (runAll (0, []) every).map (Effect.count ·.effects .dispatchFailures) = [0, 0, 2, 0, 0] ∧
      (runAll (0, []) every).map (·.outcome.isAborted) = [false, true, false, true, false] := by
  intro first every
  have h : List.Forall₂ (fun i i' ↦ i.1.SameButSends i'.1 ∧ i.2 = i'.2) first every := by
    simp only [first, every, deliveredBy, List.forall₂_map_left_iff, List.forall₂_map_right_iff,
      List.forall₂_same]
    exact fun _ _ ↦ ⟨⟨rfl, rfl, rfl⟩, trivial⟩
  obtain ⟨hsame, -, -⟩ := runAll_of_any_failures (0, []) h
  exact ⟨h, hsame, by decide, by decide, by decide⟩

end PassOn

/-- A pass with the store of interim records is the same but for failures, whichever sends fail. -/
theorem Pass.run_sameButFailures {services services' : Services}
    (hs : services.SameButSends services') (store : Store) (event : Event) :
    (run services store event).SameButFailures (run services' store event) :=
  PassOn.run_sameButFailures hs.on store event

end RiskTypology
