import RiskTypology.Model.TypologyResult
import RiskTypology.Model.Transaction

/-!
# Events and payloads

An event brings the outcome of one rule for a transaction; a payload takes the report on one
typology to those who wait for it.
-/

namespace RiskTypology

/-- The outcome of a rule, with the transaction and the map it belongs to. -/
structure Event where
  networkMap : NetworkMap
  ruleResult : RuleResult
  transaction : Transaction
  metadata : Option Metadata := none

/-- The report on a typology, with the transaction and the map it belongs to. -/
structure Payload where
  typologyResult : TypologyResult
  transaction : Transaction
  networkMap : NetworkMap
  metadata : Option Metadata := none

namespace Event

/-- The record's wire fields. -/
def shape : Shape := ⟨"TypologyEvent", ["networkMap", "ruleResult", "transaction", "metaData"]⟩

/-- Read an event. -/
def read : Reader Event :=
  Draft.record shape fun p ↦
    Event.mk <$> p.required "networkMap" NetworkMap.read <*>
      p.required "ruleResult" RuleResult.read <*> p.required "transaction" Transaction.read <*>
      p.optional "metaData" Metadata.read

/-- The wire form. -/
def toJson (e : Event) : Json :=
  .obj ([("networkMap", e.networkMap.toJson), ("ruleResult", e.ruleResult.toJson),
      ("transaction", e.transaction.toJson)] ++
    Json.member? "metaData" (e.metadata.map Metadata.toJson))

/-- The key under which the event's rule result is gathered. -/
def cacheKey (e : Event) : String := e.transaction.cacheKey

end Event

namespace Payload

/-- The record's wire fields. -/
def shape : Shape :=
  ⟨"ResultPayload", ["typologyResult", "transaction", "networkMap", "metaData"]⟩

/-- Read a payload. -/
def read : Reader Payload :=
  Draft.record shape fun p ↦
    Payload.mk <$> p.required "typologyResult" TypologyResult.read <*>
      p.required "transaction" Transaction.read <*> p.required "networkMap" NetworkMap.read <*>
      p.optional "metaData" Metadata.read

/-- The wire form. -/
def toJson (p : Payload) : Json :=
  .obj ([("typologyResult", p.typologyResult.toJson), ("transaction", p.transaction.toJson),
      ("networkMap", p.networkMap.toJson)] ++
    Json.member? "metaData" (p.metadata.map Metadata.toJson))

end Payload
end RiskTypology
