import RiskTypology.Service.MediaType
import RiskTypology.Json.Reader
import RiskTypology.Pass

/-!
# The service over HTTP

Events are posted to `/execute`, and `/health` tells that the service is there. A web framework
takes requests to these routes and reads events from their bodies; it is known by what it makes of a
request. One such framework is given for requests as they are written: it looks at the path first,
then at the method, the content type, the size of the body, and last at what the body says.
-/

namespace RiskTypology

/-- What answers requests. -/
inductive Handler where
  | execute
  | healthCheck
deriving DecidableEq, Repr

/-- A route: requests for its path by its method go to its handler. -/
structure HttpRoute where
  path : String
  method : String
  handler : Handler
deriving DecidableEq, Repr

namespace HttpRoute

/-- Characters by which a path is a pattern. -/
def patternChars : List Char := ['\x7b', '\x7d', ':', '*']

/-- A path that stands for itself alone. -/
def IsLiteral (route : HttpRoute) : Prop :=
  route.path.toList.head? = some '/' ∧ route.path.toList.all (· ∉ patternChars)

/-- Whether a path stands for itself can be tested. -/
instance (route : HttpRoute) : Decidable route.IsLiteral := inferInstanceAs (Decidable (_ ∧ _))

/-- Whether a route takes requests by a method. One for `GET` takes those by `HEAD` as well. -/
def takes (route : HttpRoute) (method : String) : Bool :=
  route.method == method || (route.method == "GET" && method == "HEAD")

end HttpRoute

/-- Routes each of which has a literal path of its own. -/
structure RouteTable where
  routes : List HttpRoute
  literal : ∀ route ∈ routes, route.IsLiteral
  distinct : (routes.map (·.path)).Nodup

/-- The routes of the service. -/
def serviceRoutes : RouteTable where
  routes := [⟨"/execute", "POST", .execute⟩, ⟨"/health", "GET", .healthCheck⟩]
  literal := by decide
  distinct := by decide

/-- A web framework, by what it makes of requests of some kind. -/
structure Framework (ρ : Type) where
  path : ρ → String
  method : ρ → String
  /-- Whether the content type announces JSON. -/
  announcesJson : ρ → Bool
  /-- What the body says in JSON, if the body is taken and nothing follows what it says. -/
  json? : ρ → Option Draft
  /-- The handler to which a table of routes leads, or the status of a refusal. -/
  route : RouteTable → ρ → Except Nat Handler
  /-- The event that is extracted for a handler, or the status of a refusal. -/
  extract : ρ → Except Nat Event

/-- What is answered in the body. -/
inductive ResponseBody where
  | outcome (o : Outcome)
  | text (s : String)
  /-- Whatever the framework says about an error. -/
  | unspecified

/-- A response. -/
structure Response where
  status : Nat
  body : ResponseBody

/-- A request that was handled: the response, the store after it, and the effects. -/
structure HandledOn (σ : Type) where
  response : Response
  store : σ
  effects : List Effect

namespace Framework

variable {ρ σ : Type}

/-- Process an event. A pass that was aborted is told, and answered like any other. -/
def execute (services : ServicesOn σ) (store : σ) (event : Event) : HandledOn σ :=
  let pass := PassOn.run services store event
  ⟨⟨200, .outcome pass.outcome⟩, pass.store,
    pass.effects ++ if pass.outcome.isAborted then [.told .notProcessed] else []⟩

/-- Handle a request. Where only the head of an answer is asked for, its body stays away. -/
def handle (f : Framework ρ) (services : ServicesOn σ) (store : σ) (r : ρ) : HandledOn σ :=
  match f.route serviceRoutes r with
  | .error status => ⟨⟨status, .unspecified⟩, store, []⟩
  | .ok .healthCheck =>
    ⟨⟨200, .text (if f.method r = "HEAD" then "" else "OK")⟩, store, []⟩
  | .ok .execute =>
    match f.extract r with
    | .error status => ⟨⟨status, .unspecified⟩, store, []⟩
    | .ok event => execute services store event

end Framework

/-- A request as it is written. -/
structure Request where
  method : String
  /-- A path, or a whole address; a query and a fragment may follow. -/
  target : String
  contentType : Option String
  body : String

namespace Request

/-- How many bytes of body are taken. -/
def bodyLimit : Nat := 2 * 1024 * 1024

/-- What follows the scheme of an address. -/
def afterScheme? : List Char → Option (List Char)
  | ':' :: '/' :: '/' :: rest => some rest
  | c :: rest => if c.isAlphanum || "+-.".toList.contains c then afterScheme? rest else none
  | [] => none

/-- A path without the query and the fragment behind it. -/
def barePath (cs : List Char) : List Char := cs.takeWhile fun c ↦ c != '?' && c != '#'

/-- The path of a target. That of a whole address stands behind the host, and is the root if nothing
does; a host alone has none. -/
def path (r : Request) : String :=
  let target := r.target.toList
  if target.head? = some '/' ∨ target = ['*'] then String.ofList (barePath target)
  else match afterScheme? target with
    | none => ""
    | some address =>
      let rest := barePath (address.dropWhile fun c ↦ c != '/' && c != '?' && c != '#')
      if rest.isEmpty then "/" else String.ofList rest

/-- Whether the content type announces JSON. -/
def hasJsonType (r : Request) : Bool := (r.contentType.map MediaType.isJson).getD false

/-- What the body says in JSON, unless it is too long or something follows. -/
def json? (r : Request) : Option Draft :=
  if bodyLimit < r.body.utf8ByteSize then none
  else match Json.draft r.body with
    | (d, false) => some d
    | (_, true) => none

/-- The event in the body, or the status of a refusal: the body is too long, is no JSON, or is JSON
but no event. -/
def bodyEvent (r : Request) : Except Nat Event :=
  if bodyLimit < r.body.utf8ByteSize then .error 413
  else match Json.readText Event.read r.body with
    | .ok event => .ok event
    | .error fault => .error (if fault.defect?.isSome then 400 else 422)

/-- The handler to which routes lead, or the status of a refusal: no route has the path, or the one
that has it does not take the method. -/
def handler (table : RouteTable) (r : Request) : Except Nat Handler :=
  match table.routes.find? (·.path == r.path) with
  | none => .error 404
  | some route => if route.takes r.method then .ok route.handler else .error 405

/-- The framework for requests as they are written. -/
def framework : Framework Request where
  path := path
  method := fun r ↦ r.method
  announcesJson := hasJsonType
  json? := json?
  route := handler
  extract := fun r ↦ if r.hasJsonType then r.bodyEvent else .error 415

end Request

/-- A request that was handled with the store of interim records. -/
abbrev Handled := HandledOn Store

/-- Handle a request. -/
def handle (services : Services) (store : Store) (r : Request) : Handled :=
  Request.framework.handle services.on store r

end RiskTypology
