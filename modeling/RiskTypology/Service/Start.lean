import RiskTypology.Configuration
import RiskTypology.Repository
import RiskTypology.Service.Http

/-!
# Starting the service

What a configuration and the definitions make of a service. Time is counted in milliseconds.
-/

namespace RiskTypology

/-- A service between two requests. -/
structure Service where
  services : Services
  store : Store

namespace Service

/-- The service of a configuration; `post` reaches the servers behind the channels. -/
def ofConfiguration (c : ProcessorSettings) (repository : Repository) (post : Url → Reply) :
    Except Failure Service := do
  let channels ← Channels.ofSettings c.channels
  let deliver := fun (_ : Nat) (s : Send) ↦
    match channels.deliver (fun url ↦ (pure (post url) : Id Reply)) s.channels with
    | .ok () => none
    | .error fault => some fault.message
  let routes : Routes :=
    { define := fun id cfg ↦ .ok (repository.find? id cfg)
      interdictionChannel := c.channels.interdictionName
      deliver
      elapsed := fun _ ↦ 0 }
  return ⟨{ routes }, { ttl := c.ttl.map fun seconds ↦ seconds.toNat * 1000 }⟩

/-- Handle a request that comes at some time. -/
def handle (s : Service) (now : Nat) (r : Request) : Service × Handled :=
  let done := RiskTypology.handle { s.services with now } s.store r
  ({ s with store := done.store }, done)

end Service
end RiskTypology
