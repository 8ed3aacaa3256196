import Mathlib.Data.List.Nodup
import RiskTypology.Service.Http

/-!
# What is made of a request

What a web framework documents of its routing and of its JSON extractor, and what that makes of the
routes of the service. A request either brings an event, and is answered with what becomes of that,
or it leaves everything as it was. The framework for requests as they are written keeps to it.
-/

namespace RiskTypology

variable {ρ σ : Type}

namespace Framework

/-- The event that the body of a request says, if it says one. -/
def decode? (f : Framework ρ) (r : ρ) : Option Event :=
  (f.json? r).bind fun draft ↦ (Event.read draft).toOption

/-- What a framework documents. A table of routes leads a request to the handler of the route that
has its path and takes its method, and no other request is led anywhere. What is extracted is the
event that the body says, and only if the content type announces JSON. -/
structure Lawful (f : Framework ρ) : Prop where
  routed : ∀ table r handler, f.route table r = .ok handler ↔
    ∃ route ∈ table.routes, route.path = f.path r ∧ route.takes (f.method r) = true ∧
      route.handler = handler
  /-- A request that is not led anywhere is not found, or its method is not allowed. -/
  notRouted : ∀ table r status, f.route table r = .error status → status = 404 ∨ status = 405
  extracted : ∀ r event, f.extract r = .ok event ↔
    f.announcesJson r = true ∧ f.decode? r = some event
  /-- Nothing is extracted from a body that is malformed, too long, not announced or ill-typed. -/
  notExtracted : ∀ r status, f.extract r = .error status → status ∈ [400, 413, 415, 422]

variable (f : Framework ρ)

/-- The event a request brings. -/
def event? (r : ρ) : Option Event :=
  if f.path r = "/execute" ∧ f.method r = "POST" ∧ f.announcesJson r = true then f.decode? r
  else none

/-- Whether a request only asks if the service is there. -/
def IsHealthCheck (r : ρ) : Prop :=
  f.path r = "/health" ∧ (f.method r = "GET" ∨ f.method r = "HEAD")

/-- Whether a request is a health check can be tested. -/
instance (r : ρ) : Decidable (f.IsHealthCheck r) := inferInstanceAs (Decidable (_ ∧ _))

/-- A request that was handled without anything coming of it; only a health check is content with
that. -/
structure Idle (r : ρ) (store : σ) (handled : HandledOn σ) : Prop where
  store : handled.store = store
  effects : handled.effects = []
  status : if f.IsHealthCheck r then handled.response.status = 200
    else 400 ≤ handled.response.status ∧ handled.response.status < 500

variable {f} (hf : f.Lawful) {r : ρ}

/-- A request brings an event if it is posted to `/execute`, announces JSON and says the event. -/
theorem event?_eq_some {event : Event} :
    f.event? r = some event ↔ f.path r = "/execute" ∧ f.method r = "POST" ∧
      f.announcesJson r = true ∧ f.decode? r = some event := by
  rw [event?, Option.ite_none_right_eq_some, and_assoc, and_assoc]

/-- A refusal that is no answer to a health check is idle. -/
private theorem idle_of_refused {status : Nat} {store : σ} (hn : ¬ f.IsHealthCheck r)
    (hs : status ∈ [400, 404, 405, 413, 415, 422]) :
    f.Idle r store ⟨⟨status, .unspecified⟩, store, []⟩ where
  store := rfl
  effects := rfl
  status := by
    rw [if_neg hn]
    simp only [List.mem_cons, List.not_mem_nil, or_false] at hs
    dsimp only
    omega

include hf

/-- Requests are led to processing if they are posted to `/execute`. -/
theorem Lawful.routed_execute :
    f.route serviceRoutes r = .ok .execute ↔ f.path r = "/execute" ∧ f.method r = "POST" := by
  rw [hf.routed, @eq_comm _ (f.path r), @eq_comm _ (f.method r)]
  simp [serviceRoutes, HttpRoute.takes]

/-- Requests are led to the health check if they ask for it, be it for its head alone. -/
theorem Lawful.routed_healthCheck :
    f.route serviceRoutes r = .ok .healthCheck ↔ f.IsHealthCheck r := by
  rw [hf.routed, IsHealthCheck, @eq_comm _ (f.path r), @eq_comm _ (f.method r) "GET"]
  simp [serviceRoutes, HttpRoute.takes]

variable (services : ServicesOn σ) (store : σ)

/-- A request that brings an event is answered with what becomes of it; any other is idle. -/
theorem handle_cases (r : ρ) :
    (∃ event, f.event? r = some event ∧
        f.handle services store r = execute services store event) ∨
      f.event? r = none ∧ f.Idle r store (f.handle services store r) := by
  have hexecute := hf.routed_execute (r := r)
  have hhealth := hf.routed_healthCheck (r := r)
  unfold handle
  cases hroute : f.route serviceRoutes r with
  | error status =>
    rw [hroute] at hexecute hhealth
    have hevent : f.event? r = none := if_neg fun h ↦ nomatch hexecute.mpr ⟨h.1, h.2.1⟩
    refine .inr ⟨hevent, idle_of_refused (fun h ↦ nomatch hhealth.mpr h) ?_⟩
    rcases hf.notRouted _ _ _ hroute with rfl | rfl <;> decide
  | ok handler =>
    rw [hroute] at hexecute hhealth
    cases handler with
    | healthCheck =>
      have hevent : f.event? r = none := if_neg fun h ↦ nomatch hexecute.mpr ⟨h.1, h.2.1⟩
      exact .inr ⟨hevent, rfl, rfl, by rw [if_pos (hhealth.mp rfl)]⟩
    | execute =>
      obtain ⟨hpath, hmethod⟩ := hexecute.mp rfl
      cases hextract : f.extract r with
      | ok event =>
        exact .inl ⟨event, event?_eq_some.mpr ⟨hpath, hmethod, (hf.extracted r event).mp hextract⟩,
          rfl⟩
      | error status =>
        have hevent : f.event? r = none := by
          rw [Option.eq_none_iff_forall_ne_some]
          intro event h
          obtain ⟨-, -, h⟩ := event?_eq_some.mp h
          rw [(hf.extracted r event).mpr h] at hextract
          cases hextract
        refine .inr ⟨hevent, idle_of_refused (fun h ↦ nomatch hhealth.mpr h) ?_⟩
        have hs := hf.notExtracted _ _ hextract
        simp only [List.mem_cons, List.not_mem_nil, or_false] at hs ⊢
        omega

end Framework

/-- The route of a table that has a path is the only one, so it is found. -/
theorem RouteTable.find?_eq_some {table : RouteTable} {path : String} {route : HttpRoute} :
    table.routes.find? (·.path == path) = some route ↔
      route ∈ table.routes ∧ route.path = path := by
  constructor
  · intro h
    exact ⟨List.mem_of_find?_eq_some h, by simpa using List.find?_some h⟩
  · rintro ⟨hroute, rfl⟩
    have hsome : (table.routes.find? (·.path == route.path)).isSome = true :=
      List.find?_isSome.mpr ⟨route, hroute, beq_self_eq_true _⟩
    obtain ⟨found, hfound⟩ := Option.isSome_iff_exists.mp hsome
    have hpath : found.path = route.path := by simpa using List.find?_some hfound
    have hmem := List.mem_of_find?_eq_some hfound
    rw [hfound, List.inj_on_of_nodup_map table.distinct hmem hroute hpath]

namespace Request

/-- Routes lead a request to the handler of the one that has its path and takes its method. -/
theorem handler_eq_ok {table : RouteTable} {r : Request} {handler : Handler} :
    r.handler table = .ok handler ↔
      ∃ route ∈ table.routes, route.path = r.path ∧ route.takes r.method = true ∧
        route.handler = handler := by
  rw [Request.handler]
  constructor
  · intro h
    split at h
    · cases h
    · next route hfind =>
      obtain ⟨hroute, hpath⟩ := table.find?_eq_some.mp hfind
      split at h
      · next ht => exact ⟨route, hroute, hpath, ht, Except.ok.inj h⟩
      · cases h
  · rintro ⟨route, hroute, hpath, ht, rfl⟩
    rw [table.find?_eq_some.mpr ⟨hroute, hpath⟩]
    exact if_pos ht

/-- A request that is not led anywhere is not found, or its method is not allowed. -/
theorem status_of_handler {table : RouteTable} {r : Request} {status : Nat}
    (h : r.handler table = .error status) : status = 404 ∨ status = 405 := by
  rw [Request.handler] at h
  split at h
  · exact .inl (Except.error.inj h).symm
  · split at h
    · cases h
    · exact .inr (Except.error.inj h).symm

/-- A body says what its draft holds, if it is not too long and nothing follows. -/
theorem json?_eq_some {r : Request} {draft : Draft} :
    r.json? = some draft ↔
      r.body.utf8ByteSize ≤ bodyLimit ∧ Json.draft r.body = (draft, false) := by
  rw [json?, Option.ite_none_left_eq_some, Nat.not_lt]
  obtain ⟨d, _ | _⟩ := Json.draft r.body <;> simp

/-- The event that a body says is read from its text, if that is not too long. -/
theorem decode?_framework_eq_some {r : Request} {event : Event} :
    framework.decode? r = some event ↔
      r.body.utf8ByteSize ≤ bodyLimit ∧ Json.readText Event.read r.body = .ok event := by
  have hread (d : Draft) : (Event.read d).toOption = some event ↔ Event.read d = .ok event := by
    cases Event.read d <;> simp [Except.toOption]
  change r.json?.bind (fun d ↦ (Event.read d).toOption) = some event ↔ _
  simp only [Option.bind_eq_some_iff, json?_eq_some, Json.readText_eq_ok, hread, and_assoc,
    exists_and_left]

/-- The event in a body is the one that the body says. -/
theorem bodyEvent_eq_ok {r : Request} {event : Event} :
    r.bodyEvent = .ok event ↔ framework.decode? r = some event := by
  rw [decode?_framework_eq_some, bodyEvent, ← Nat.not_lt]
  split
  · next h => exact iff_of_false (fun h ↦ nomatch h) fun hd ↦ hd.1 h
  · next h => cases Json.readText Event.read r.body <;> simp [h]

/-- A body without an event is malformed, too long or ill-typed. -/
theorem status_of_bodyEvent {r : Request} {status : Nat} (h : r.bodyEvent = .error status) :
    status ∈ [400, 413, 422] := by
  rw [bodyEvent] at h
  split at h
  · cases h
    decide
  · split at h
    · cases h
    · cases h
      split <;> decide

/-- The framework for requests as they are written keeps to what is documented. -/
theorem lawful_framework : framework.Lawful where
  routed _ _ _ := handler_eq_ok
  notRouted _ _ _ := status_of_handler
  extracted r event := by
    change (if r.hasJsonType then r.bodyEvent else .error 415) = .ok event ↔
      r.hasJsonType = true ∧ framework.decode? r = some event
    rw [← bodyEvent_eq_ok]
    cases r.hasJsonType <;> simp
  notExtracted r status h := by
    change (if r.hasJsonType then r.bodyEvent else .error 415) = .error status at h
    split at h
    · have hs := status_of_bodyEvent h
      simp only [List.mem_cons, List.not_mem_nil, or_false] at hs ⊢
      omega
    · cases h
      decide

end Request
end RiskTypology
