import RiskTypology.Accumulator.Gateway
import RiskTypology.Aggregation
import RiskTypology.Routing

/-!
# Passes

One pass takes one event through: its rule result is gathered, the typologies waiting for it are
brought up to date, those that are ready are scored and sent, and when nothing is outstanding for
the transaction any more its entry is cleaned up. A pass that cannot gather is aborted. Nothing
fails to the outside; what goes wrong is told.
-/

namespace RiskTypology

/-- What a pass did. -/
structure Outcome where
  cacheKey : String
  /-- Missing when the pass was aborted. -/
  counts : Option RuleCounts
  /-- How many typologies the event touched. -/
  emitted : Nat
  /-- The last payload for the default channel. -/
  last : Option Payload
  /-- Whether the transaction's entry was deleted. -/
  cleanedUp : Bool

namespace Outcome

/-- The outcome of a pass that could not gather. -/
def aborted (cacheKey : String) : Outcome := ⟨cacheKey, none, 0, none, false⟩

/-- Whether the pass could not gather. -/
def isAborted (o : Outcome) : Bool := o.counts.isNone

/-- Counts on the wire. -/
def countsJson : Option RuleCounts → Json
  | none => .null
  | some c => .obj [("storedRules", .int c.stored), ("totalRules", .int c.total)]

/-- The wire form. -/
def toJson (o : Outcome) : Json :=
  .obj [("cacheKey", .str o.cacheKey), ("ruleCounts", countsJson o.counts),
    ("typologiesEmitted", .int o.emitted),
    ("lastPayload", (o.last.map Payload.toJson).getD .null), ("cleanedUp", .bool o.cleanedUp)]

end Outcome

/-- What a pass relies on besides the state of its store, which may be of any kind. -/
structure ServicesOn (σ : Type) where
  routes : Routes
  store : RecordStore σ

/-- A pass with a store of some kind: what it did, the state of the store after it, and its
effects. -/
structure PassOn (σ : Type) where
  outcome : Outcome
  store : σ
  effects : List Effect

namespace PassOn

variable {σ : Type}

/-- Clean up behind a transaction. -/
def cleanUp (services : ServicesOn σ) (store : σ) (key : String) : σ × Bool × List Effect :=
  match services.store.remove store key with
  | (after, .ok ()) => (after, true, [.counted .cleanups])
  | (after, .error e) => (after, false, [.told (.notCleanedUp e.message)])

/-- The rest of a pass, when everything gathered so far is known. -/
def finish (services : ServicesOn σ) (store : σ) (event : Event) (gathered : List RuleResult) :
    PassOn σ :=
  let a := aggregate event.networkMap gathered event.ruleResult
  let counts : RuleCounts := ⟨RuleResult.distinctCount gathered, a.ruleCount⟩
  let context : Context := ⟨event.networkMap, event.transaction, event.metadata⟩
  let routed := route services.routes context counts a.results
  let (after, cleanedUp, effects) :=
    if counts.isComplete then cleanUp services store event.cacheKey else (store, false, [])
  ⟨⟨event.cacheKey, some counts, a.results.length, routed.last, cleanedUp⟩, after,
    routed.effects ++ effects⟩

/-- Take one event through. -/
def run (services : ServicesOn σ) (store : σ) (event : Event) : PassOn σ :=
  match services.store.save store event.cacheKey event.ruleResult with
  | (after, .ok (some gathered)) => finish services after event gathered
  | (after, .ok none) => ⟨.aborted event.cacheKey, after, [.told .noRecords]⟩
  | (after, .error e) => ⟨.aborted event.cacheKey, after, [.told (.notAccumulated e.message)]⟩

/-- Take events through one after the other, each with the services of its time. -/
def runAll : σ → List (ServicesOn σ × Event) → List (PassOn σ)
  | _, [] => []
  | store, (services, event) :: rest =>
    let pass := run services store event
    pass :: runAll pass.store rest

end PassOn

/-- What a pass relies on besides the store of interim records itself. -/
structure Services where
  routes : Routes
  store : StoreMode := {}
  now : Nat := 0

/-- The services of a pass, with the store of interim records as it works at their time. -/
def Services.on (services : Services) : ServicesOn Store :=
  ⟨services.routes, Store.working services.store services.now⟩

/-- These services save in the store of interim records. -/
theorem Services.save_on (services : Services) (store : Store) (key : String) (r : RuleResult) :
    services.on.store.save store key r = store.save services.store services.now key r := rfl

/-- These services remove from the store of interim records. -/
theorem Services.remove_on (services : Services) (store : Store) (key : String) :
    services.on.store.remove store key = store.remove services.store key := rfl

/-- A pass with the store of interim records. -/
abbrev Pass := PassOn Store

namespace Pass

/-- Clean up behind a transaction. -/
def cleanUp (services : Services) (store : Store) (key : String) : Store × Bool × List Effect :=
  PassOn.cleanUp services.on store key

/-- The rest of a pass, when everything gathered so far is known. -/
def finish (services : Services) (store : Store) (event : Event) (gathered : List RuleResult) :
    Pass :=
  PassOn.finish services.on store event gathered

/-- Take one event through. -/
def run (services : Services) (store : Store) (event : Event) : Pass :=
  PassOn.run services.on store event

/-- Take events through one after the other, each with the services of its time. -/
def runAll (store : Store) (inputs : List (Services × Event)) : List Pass :=
  PassOn.runAll store (inputs.map fun input ↦ (input.1.on, input.2))

/-- A clean-up removes what was saved, and tells how that went. -/
theorem cleanUp_eq (services : Services) (store : Store) (key : String) :
    cleanUp services store key =
      match store.remove services.store key with
      | (after, .ok ()) => (after, true, [.counted .cleanups])
      | (after, .error e) => (after, false, [.told (.notCleanedUp e.message)]) := by
  rw [cleanUp, PassOn.cleanUp, services.remove_on]
  obtain ⟨after, _ | _⟩ := store.remove services.store key <;> rfl

/-- A pass saves its rule result and goes on with what it gets, if it gets anything. -/
theorem run_eq (services : Services) (store : Store) (event : Event) :
    run services store event =
      match store.save services.store services.now event.cacheKey event.ruleResult with
      | (after, .ok (some gathered)) => finish services after event gathered
      | (after, .ok none) => ⟨.aborted event.cacheKey, after, [.told .noRecords]⟩
      | (after, .error e) =>
        ⟨.aborted event.cacheKey, after, [.told (.notAccumulated e.message)]⟩ := by
  rw [run, PassOn.run, services.save_on]
  obtain ⟨after, _ | _ | gathered⟩ :=
    store.save services.store services.now event.cacheKey event.ruleResult <;> rfl

/-- The first event is taken through before the others. -/
theorem runAll_cons (store : Store) (services : Services) (event : Event)
    (rest : List (Services × Event)) :
    runAll store ((services, event) :: rest) =
      run services store event :: runAll (run services store event).store rest := rfl

end Pass
end RiskTypology
