import RiskTypology.Proofs.Pass.Finish
import RiskTypology.Proofs.Service.Framework

/-!
# Exchanges

Requests and their answers, one after the other on one store of any kind, with any web framework
that keeps to what it documents. Some requests bring events: they are posted to `/execute` and
announced as JSON, and their bodies say the events. The main statement: a sequence of requests does
to the store, sends and counts what the run of the events it brings does. Each of these requests is
answered with the outcome of its pass, even of an aborted one. No other request does anything, and
only health checks among them are answered with success.
-/

namespace RiskTypology

variable {ρ σ : Type}

/-- The state of the store after a run. -/
def PassOn.storeAfter : σ → List (ServicesOn σ × Event) → σ
  | store, [] => store
  | store, (services, event) :: rest => storeAfter (run services store event).store rest

/-- A request, the services of its time, and the store it finds. -/
structure Exchange (σ ρ : Type) where
  services : ServicesOn σ
  request : ρ
  before : σ

namespace Exchange

variable (f : Framework ρ) (x : Exchange σ ρ)

/-- How the request is handled. -/
def handled : HandledOn σ := f.handle x.services x.before x.request

/-- The pass in which the event of the request is processed. -/
def pass? : Option (PassOn σ) := (f.event? x.request).map (PassOn.run x.services x.before)

/-- An exchange that leaves everything as it was, and that only a health check is content with. -/
def Idle : Prop := f.Idle x.request x.before (x.handled f)

variable {f} (hf : f.Lawful)

include hf

/-- A request that brings an event is answered with the outcome of the event's pass, whatever that
is. Beyond what is done in the pass it is told if the pass could not gather. -/
theorem handled_of_pass? {x : Exchange σ ρ} {p : PassOn σ} (h : x.pass? f = some p) :
    x.handled f = ⟨⟨200, .outcome p.outcome⟩, p.store,
      p.effects ++ if p.outcome.isAborted then [.told .notProcessed] else []⟩ := by
  obtain ⟨event, hevent, rfl⟩ := Option.map_eq_some_iff.mp h
  obtain ⟨other, hother, hhandled⟩ | ⟨hnone, -⟩ :=
    f.handle_cases hf x.services x.before x.request
  · obtain rfl := Option.some.inj (hother.symm.trans hevent)
    exact hhandled
  · rw [hnone] at hevent
    cases hevent

/-- A request that brings no event changes nothing. -/
theorem idle_of_event?_eq_none (h : f.event? x.request = none) : x.Idle f := by
  obtain ⟨event, hevent, -⟩ | ⟨-, hidle⟩ := f.handle_cases hf x.services x.before x.request
  · rw [h] at hevent
    cases hevent
  · exact hidle

end Exchange

namespace Framework

variable (f : Framework ρ)

/-- The exchanges of a sequence of requests on a store. -/
def exchanges : σ → List (ServicesOn σ × ρ) → List (Exchange σ ρ)
  | _, [] => []
  | store, (services, request) :: rest =>
    let exchange : Exchange σ ρ := ⟨services, request, store⟩
    exchange :: exchanges (exchange.handled f).store rest

/-- The store after a sequence of requests. -/
def storeAfterRequests : σ → List (ServicesOn σ × ρ) → σ
  | store, [] => store
  | store, (services, request) :: rest =>
    storeAfterRequests (f.handle services store request).store rest

/-- The events a sequence of requests brings, each with the services of its time. -/
def eventsOf (requests : List (ServicesOn σ × ρ)) : List (ServicesOn σ × Event) :=
  requests.filterMap fun (services, request) ↦ (f.event? request).map (services, ·)

section

variable {f} {services : ServicesOn σ} {request : ρ}

private theorem eventsOf_cons_none (h : f.event? request = none)
    (rest : List (ServicesOn σ × ρ)) :
    f.eventsOf ((services, request) :: rest) = f.eventsOf rest := by
  simp [eventsOf, h]

private theorem eventsOf_cons_some {event : Event} (h : f.event? request = some event)
    (rest : List (ServicesOn σ × ρ)) :
    f.eventsOf ((services, request) :: rest) = (services, event) :: f.eventsOf rest := by
  simp [eventsOf, h]

end

section

variable {f} (hf : f.Lawful) (store : σ) (requests : List (ServicesOn σ × ρ))

include hf

/-- The exchanges that take events do the passes of the run of these events, and they leave the
store of that run. -/
theorem passes_of_exchanges :
    (f.exchanges store requests).filterMap (·.pass? f) =
        PassOn.runAll store (f.eventsOf requests) ∧
      f.storeAfterRequests store requests = PassOn.storeAfter store (f.eventsOf requests) := by
  induction requests generalizing store with
  | nil => exact ⟨rfl, rfl⟩
  | cons input rest ih =>
    obtain ⟨services, request⟩ := input
    let x : Exchange σ ρ := ⟨services, request, store⟩
    change (x :: f.exchanges (x.handled f).store rest).filterMap (·.pass? f) = _ ∧
      f.storeAfterRequests (x.handled f).store rest = _
    obtain ⟨hpasses, hstore⟩ := ih (x.handled f).store
    cases hevent : f.event? request with
    | none =>
      have hx : (x.handled f).store = store := (x.idle_of_event?_eq_none hf hevent).store
      have hpass : x.pass? f = none := by rw [Exchange.pass?, hevent, Option.map_none]
      rw [eventsOf_cons_none hevent, List.filterMap_cons_none hpass, hpasses, hstore, hx]
      exact ⟨rfl, rfl⟩
    | some event =>
      have hpass : x.pass? f = some (PassOn.run services store event) := by
        rw [Exchange.pass?, hevent, Option.map_some]
      have hx : (x.handled f).store = (PassOn.run services store event).store := by
        rw [Exchange.handled_of_pass? hf hpass]
      rw [eventsOf_cons_some hevent, List.filterMap_cons_some hpass, hpasses, hstore, hx]
      exact ⟨rfl, rfl⟩

/-- What shows of the effects of a sequence of requests is what shows of those of its run, if
notices do not show. -/
theorem flatMap_exchanges {β : Type} {view : List Effect → List β} (hnil : view [] = [])
    (htold : ∀ effects notice, view (effects ++ [.told notice]) = view effects) :
    (f.exchanges store requests).flatMap (fun x ↦ view (x.handled f).effects) =
      (PassOn.runAll store (f.eventsOf requests)).flatMap (fun p ↦ view p.effects) := by
  rw [← (passes_of_exchanges hf store requests).1]
  induction f.exchanges store requests with
  | nil => rfl
  | cons x rest ih =>
    rw [List.flatMap_cons, ih]
    cases hpass : x.pass? f with
    | none =>
      have hevent : f.event? x.request = none := Option.map_eq_none_iff.mp hpass
      rw [List.filterMap_cons_none hpass, (x.idle_of_event?_eq_none hf hevent).effects, hnil,
        List.nil_append]
    | some p =>
      have hview : view (x.handled f).effects = view p.effects := by
        rw [Exchange.handled_of_pass? hf hpass]
        cases p.outcome.isAborted with
        | true => exact htold _ _
        | false => simp
      rw [List.filterMap_cons_some hpass, List.flatMap_cons, hview]

/-- With any framework that keeps to what it documents, and with a store of any kind, a sequence of
requests does what the run of the events it brings does: it leaves the same store, sends the same
and counts the same, each in the same order. The exchanges that take these events do the passes of
that run, and each is answered with the outcome of its pass, even of an aborted one. All other
exchanges leave the store as it is, send nothing and count nothing, and of these only health checks
are answered with success. -/
theorem exchanges_eq_run :
    f.storeAfterRequests store requests = PassOn.storeAfter store (f.eventsOf requests) ∧
      (f.exchanges store requests).flatMap (fun x ↦ Effect.sends (x.handled f).effects) =
        (PassOn.runAll store (f.eventsOf requests)).flatMap (Effect.sends ·.effects) ∧
      (f.exchanges store requests).flatMap (fun x ↦ Effect.metrics (x.handled f).effects) =
        (PassOn.runAll store (f.eventsOf requests)).flatMap (Effect.metrics ·.effects) ∧
      (f.exchanges store requests).filterMap (·.pass? f) =
        PassOn.runAll store (f.eventsOf requests) ∧
      ∀ x ∈ f.exchanges store requests,
        (∀ p ∈ x.pass? f, (x.handled f).response = ⟨200, .outcome p.outcome⟩) ∧
          (f.event? x.request = none → x.Idle f) := by
  obtain ⟨hpasses, hstore⟩ := passes_of_exchanges hf store requests
  have hsends (effects : List Effect) (notice : Notice) :
      Effect.sends (effects ++ [.told notice]) = Effect.sends effects := by
    simp [Effect.sends]
  have hmetrics (effects : List Effect) (notice : Notice) :
      Effect.metrics (effects ++ [.told notice]) = Effect.metrics effects := by
    simp [Effect.metrics]
  refine ⟨hstore, flatMap_exchanges hf store requests rfl hsends,
    flatMap_exchanges hf store requests rfl hmetrics, hpasses, ?_⟩
  intro x _
  constructor
  · intro p hp
    rw [Exchange.handled_of_pass? hf hp]
  · exact x.idle_of_event?_eq_none hf

end

private def eventText : String :=
  "[\x7b\x22messages\x22:[]\x7d," ++
  "\x7b\x22id\x22:\x22A\x22,\x22cfg\x22:\x221\x22,\x22subRuleRef\x22:\x22.01\x22\x7d," ++
  "\x7b\x22TxTp\x22:\x22p\x22," ++
  "\x22FIToFIPmtSts\x22:\x7b\x22GrpHdr\x22:\x7b\x22MsgId\x22:\x22m\x22\x7d\x7d\x7d]"

private def asked (method target : String) : ServicesOn Store × Request :=
  (Services.plain.on, ⟨method, target, some "application/json", eventText⟩)

private def posted (contentType : Option String) (body : String) : ServicesOn Store × Request :=
  (Services.plain.on, ⟨"POST", "/execute", contentType, body⟩)

private def postedWhileDown : ServicesOn Store × Request :=
  (({ Services.plain with store := { append := .fails "down" } } : Services).on,
    ⟨"POST", "http://localhost:3000/execute?now", some "Application/json+xml; charset=utf-8",
      eventText⟩)

private def mixedRequests : List (ServicesOn Store × Request) :=
  [asked "HEAD" "/health", asked "POST" "/health", asked "GET" "/execute", asked "POST" "/execute/",
    posted none eventText, posted (some "text/plain") eventText, postedWhileDown,
    posted (some "application/json") "[", posted (some "application/json") "\x7b\x7d",
    posted (some "application/json") eventText]

/-- Among requests that only look, that ask for what there is not and that say no event, two bring
an event on a map without rules. The pass of the one finds no store and is aborted, and that of the
other cleans up, which is all that is counted. -/
theorem exchanges_of_mixed_requests :
    let f := Request.framework
    f.Lawful ∧
      (f.eventsOf mixedRequests).map (·.2.cacheKey) = ["TP_m", "TP_m"] ∧
      (f.exchanges ({} : Store) mixedRequests).map (fun x ↦ (x.handled f).response.status) =
        [200, 405, 405, 404, 415, 415, 200, 400, 422, 200] ∧
      (PassOn.runAll ({} : Store) (f.eventsOf mixedRequests)).map (·.outcome.isAborted) =
        [true, false] ∧
      (f.exchanges ({} : Store) mixedRequests).flatMap
        (fun x ↦ Effect.metrics (x.handled f).effects) = [.cleanups] := by
  intro f
  have hf : f.Lawful := Request.lawful_framework
  obtain ⟨-, -, hmetrics, -⟩ := exchanges_eq_run hf ({} : Store) mixedRequests
  rw [hmetrics]
  exact ⟨hf, by decide +kernel⟩

end Framework
end RiskTypology
