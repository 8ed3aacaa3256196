import RiskTypology.Model.Event
import RiskTypology.Verdict

/-!
# Effects

What processing does to the outside, in order: payloads it hands out, things it counts, and
warnings and errors it reports.
-/

namespace RiskTypology

/-- How grave a notice is. -/
inductive Level where
  | warn
  | error
deriving DecidableEq, Repr

/-- The name of a level. -/
def Level.name : Level → String
  | .warn => "WARN"
  | .error => "ERROR"

/-- Something worth telling those who run the service. -/
inductive Notice where
  | definitionMissing
  | definitionUnavailable (error : String)
  | notNumeric (unresolved : List String)
  | alertThresholdMissing
  | sendFailed (destination error : String)
  | noRecords
  | notAccumulated (error : String)
  | notCleanedUp (error : String)
  | notProcessed
deriving DecidableEq, Repr

namespace Notice

/-- How grave the notice is. -/
def level : Notice → Level
  | .definitionMissing => .warn
  | .notNumeric _ => .warn
  | .notProcessed => .warn
  | _ => .error

/-- The notice in words. -/
def message : Notice → String
  | .definitionMissing => "No typology expression found for typology"
  | .definitionUnavailable _ => "Failed to load typology expression"
  | .notNumeric _ => "Typology expression did not evaluate to a number"
  | .alertThresholdMissing => "Typology config missing alert threshold"
  | .sendFailed _ _ => "Error while sending typology result"
  | .noRecords => "Accumulator returned no records for transaction"
  | .notAccumulated _ => "Failed to accumulate rule result"
  | .notCleanedUp _ => "Failed to delete typology interim cache key"
  | .notProcessed => "Rule result was not processed"

/-- The error behind the notice, if one is. -/
def error? : Notice → Option String
  | .definitionUnavailable e => some e
  | .sendFailed _ e => some e
  | .notAccumulated e => some e
  | .notCleanedUp e => some e
  | _ => none

/-- Where a payload was to go. -/
def destination? : Notice → Option String
  | .sendFailed d _ => some d
  | _ => none

/-- The terms an expression was left with. -/
def unresolved? : Notice → Option (List String)
  | .notNumeric terms => some terms
  | _ => none

end Notice

/-- A payload and the channels it is for; without channels it is for the default one. -/
structure Send where
  channels : List String
  payload : Payload

/-- How the channels of a send are told. -/
def Send.destination (s : Send) : String :=
  if s.channels.isEmpty then "default" else String.intercalate "," s.channels

/-- Something processing does to the outside. -/
inductive Effect where
  | sent (send : Send)
  | counted (metric : Metric)
  | told (notice : Notice)

namespace Effect

/-- The payloads that were handed out, in order. -/
def sends (effects : List Effect) : List Send :=
  effects.filterMap fun
    | .sent s => some s
    | _ => none

/-- What was counted, in order. -/
def metrics (effects : List Effect) : List Metric :=
  effects.filterMap fun
    | .counted m => some m
    | _ => none

/-- The notices, in order. -/
def notices (effects : List Effect) : List Notice :=
  effects.filterMap fun
    | .told n => some n
    | _ => none

/-- How often something was counted. -/
def count (effects : List Effect) (metric : Metric) : Nat := (metrics effects).count metric

/-- Sends of a longer run. -/
@[simp] theorem sends_append (a b : List Effect) : sends (a ++ b) = sends a ++ sends b := by
  simp [sends]

/-- Counts of a longer run. -/
@[simp] theorem metrics_append (a b : List Effect) :
    metrics (a ++ b) = metrics a ++ metrics b := by
  simp [metrics]

end Effect
end RiskTypology
