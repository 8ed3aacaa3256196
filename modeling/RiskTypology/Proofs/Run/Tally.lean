import Mathlib.Algebra.Ring.Nat
import RiskTypology.Proofs.Pass.Tally
import RiskTypology.Proofs.Run.Isolation

/-!
# What a run counts

Over a run the counts add up to what was sent and to how the passes ended, whatever the store
answers, whatever the look-ups say and whichever sends fail.
-/

namespace RiskTypology
namespace Pass

/-- The passes to which an event can lead, whatever kind of store is asked: aborted on what it
answers, or finished with the rule results it answers. -/
inductive Taken (services : Services) (event : Event) : Pass → Prop
  | aborted (after : Store) (notice : Notice) :
    Taken services event ⟨.aborted event.cacheKey, after, [.told notice]⟩
  | finished (after : Store) (results : List RuleResult) :
    Taken services event (finish services after event results)

/-- A pass of the store of interim records is one of them. -/
theorem taken_run (services : Services) (store : Store) (event : Event) :
    Taken services event (run services store event) := by
  rw [run_eq]
  split
  · exact .finished _ _
  · exact .aborted _ _
  · exact .aborted _ _

/-- A pass whose counts tell what it sent, which of its sends failed and whether it cleaned up. -/
structure Tallied (services : Services) (p : Pass) : Prop where
  effects : Effect.Tallied services.routes p.outcome.cleanedUp.toNat p.effects
  failures : Effect.count p.effects .dispatchFailures =
    failures services.routes.deliver 0 (Effect.sends p.effects)

/-- How a pass ends tallies with whether it cleaned up. -/
theorem tallied_ending (services : Services) (store : Store) (event : Event)
    (results : List RuleResult) :
    Effect.Tallied services.routes (ending services store event results).2.1.toNat
      (ending services store event results).2.2 := by
  rw [ending_eq]
  split
  · rw [cleanUp_eq, Store.remove_eq_tryDelete]
    cases services.store.deleteError with
    | none => exact .cleanup
    | some error => exact .told _
  · exact .nil

/-- Every pass tallies. -/
theorem Taken.tallied {services : Services} {event : Event} {p : Pass}
    (h : Taken services event p) : p.Tallied services := by
  cases h with
  | aborted after notice => exact ⟨.told notice, rfl⟩
  | finished after results =>
    refine ⟨?_, PassOn.count_failures_finish services.on after event results⟩
    rw [finish_eq, ← Nat.zero_add (Bool.toNat _)]
    exact (tallied_route _ _ _ review_of_mem_aggregate).append
      (tallied_ending services after event results)

end Pass

/-- An event that was handled: the services of its time and a pass to which it can lead. -/
structure Handling where
  services : Services
  event : Event
  pass : Pass
  taken : Pass.Taken services event pass

/-- What a turn comes to. -/
def Turn.handling (t : Turn) : Handling :=
  ⟨t.services, t.event, t.pass, Pass.taken_run t.services t.before t.event⟩

namespace Handling

/-- What is sent while an event is handled. -/
def sends (h : Handling) : List Send := Effect.sends h.pass.effects

/-- What is counted while an event is handled tells what is sent, and how the pass ends. -/
theorem tallied (h : Handling) : h.pass.Tallied h.services := h.taken.tallied

variable (history : List Handling)

/-- How often something is counted while events are handled. -/
def counted (m : Metric) : Nat := (history.map fun h ↦ Effect.count h.pass.effects m).sum

/-- How many sends of a kind there are while events are handled. -/
def sent (kind : Routes → Send → Bool) : Nat :=
  (history.map fun h ↦ h.sends.countP (kind h.services.routes)).sum

/-- How many sends fail while events are handled. -/
def failed : Nat := (history.map fun h ↦ failures h.services.routes.deliver 0 h.sends).sum

/-- How many passes clean up. -/
def cleanedUp : Nat := history.countP (·.pass.outcome.cleanedUp)

private theorem cleanedUp_eq_sum :
    cleanedUp history = (history.map (·.pass.outcome.cleanedUp.toNat)).sum := by
  induction history with
  | nil => rfl
  | cons h rest ih =>
    rw [cleanedUp] at ih ⊢
    rw [List.countP_cons, ih, List.map_cons, List.sum_cons, Nat.add_comm]
    cases h.pass.outcome.cleanedUp <;> rfl

/-- Whatever events are handled, whatever kind of store is asked and whatever fails, the counts tell
what is sent: as many alerts are counted as reports that need review leave on the default channel,
as many interdictions as reports leave on the interdiction channel, as many evaluations as reports
with a definition leave on the default channel, as many failures as sends fail, and as many
clean-ups as passes clean up. And every report on the interdiction channel needs review. -/
theorem counts_tell_sends (history : List Handling) :
    counted history .alerts = sent history (fun _ ↦ Send.alerting) ∧
    counted history .interdictions = sent history Routes.interdicting ∧
    counted history .evaluations = sent history Routes.evaluating ∧
    counted history .dispatchFailures = failed history ∧
    counted history .cleanups = cleanedUp history ∧
    ∀ h ∈ history, ∀ s ∈ h.sends, h.services.routes.interdicting s = true →
      s.payload.typologyResult.review = true := by
  have hsum {f g : Handling → Nat} (h : ∀ x, f x = g x) :
      (history.map f).sum = (history.map g).sum := by rw [funext h]
  refine ⟨?_, ?_, ?_, ?_, ?_, ?_⟩
  · exact hsum fun h ↦ h.tallied.effects.alerts
  · exact hsum fun h ↦ h.tallied.effects.interdictions
  · exact hsum fun h ↦ h.tallied.effects.evaluations
  · exact hsum fun h ↦ h.tallied.failures
  · rw [cleanedUp_eq_sum]
    exact hsum fun h ↦ h.tallied.effects.cleanups
  · intro h _
    exact h.tallied.effects.reviewed

private def partlyDefining (store : StoreMode) : Services :=
  { routes := ⟨fun id cfg ↦
      if id = "T" then .ok (some
        { id := id, cfg := cfg, rules := [], expression := .literal 9.0,
          workflow := { alert := some 1.0, interdiction := some 5.0 } })
      else .ok none,
      "cms", fun _ s ↦ if s.channels.isEmpty then none else some "down", fun _ ↦ 0⟩
    store := store }

private def nested : NetworkMap :=
  .ofTypologies [⟨"T", "1", [⟨"A", "1"⟩]⟩, ⟨"U", "1", [⟨"A", "1"⟩, ⟨"B", "1"⟩]⟩]

private def troubled : List (Services × Event) :=
  [(partlyDefining {}, .ofRule nested "m" "A" "1"),
    (partlyDefining { append := .fails "down" }, .ofRule nested "m" "B" "1"),
    (partlyDefining { deleteError := some "down" }, .ofRule nested "m" "B" "1"),
    (partlyDefining {}, .ofRule nested "m" "A" "1")]

/-- A run with a typology that interdicts, twice, on a channel that fails, an aborted pass, a
typology without a definition, twice, and a deletion that fails before one that does not. -/
theorem counts_of_troubled :
    let history := (turns {} troubled).map Turn.handling
    counted history .alerts = 2 ∧ counted history .interdictions = 2 ∧
      counted history .evaluations = 2 ∧ counted history .dispatchFailures = 2 ∧
      counted history .cleanups = 1 := by
  intro history
  obtain ⟨halerts, hinterdictions, hevaluations, hfailures, hcleanups, -⟩ :=
    counts_tell_sends history
  rw [halerts, hinterdictions, hevaluations, hfailures, hcleanups]
  exact ⟨by decide, by decide, by decide, by decide, by decide⟩

end Handling
end RiskTypology
