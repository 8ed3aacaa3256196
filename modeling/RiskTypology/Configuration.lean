import RiskTypology.Delivery.Channels
import RiskTypology.Yaml.Draft
import RiskTypology.Yaml.Include
import RiskTypology.Yaml.Printer

/-!
# Configuration

What the service is told when it starts. A configuration is the merged text of a file and all it
includes.
-/

namespace RiskTypology

/-- How events are processed. -/
structure ProcessorSettings where
  serverAddress : String
  logLevel : String
  typologiesPath : String
  metricsAddress : Option String
  /-- How many seconds the records of a transaction are kept. -/
  ttl : Option UInt64
  channels : ChannelSettings
deriving DecidableEq, Repr

/-- A configuration. -/
structure Configuration where
  projectName : String
  processor : ProcessorSettings
deriving DecidableEq, Repr

namespace ProcessorSettings

/-- The record's wire fields. -/
def shape : Shape :=
  ⟨"ProcessorConfig", ["server_address", "log_level", "typologies_path", "metrics_address",
    "accumulator_ttl_secs", "channels"]⟩

/-- Read the settings of the processor. -/
def read : Reader ProcessorSettings :=
  Draft.record shape fun p ↦
    ProcessorSettings.mk <$> p.required "server_address" Draft.text
      <*> p.required "log_level" Draft.text
      <*> p.required "typologies_path" Draft.text
      <*> p.optional "metrics_address" Draft.text
      <*> p.optional "accumulator_ttl_secs" Draft.word
      <*> p.required "channels" ChannelSettings.read

end ProcessorSettings

/-- Why a configuration cannot be loaded. -/
inductive ConfigurationFault where
  | including (fault : Yaml.IncludeFault)
  | unfit (fault : Fault)

/-- The fault in words. -/
def ConfigurationFault.message : ConfigurationFault → String
  | .including fault => fault.message
  | .unfit fault => "invalid configuration: " ++ fault.message

namespace Configuration

/-- The section that every part of a project shares. -/
def commonShape : Shape := ⟨"CommonConfig", ["project_name"]⟩

/-- Read that section. -/
def readCommon : Reader String :=
  Draft.record commonShape fun p ↦ p.required "project_name" Draft.text

/-- The record's wire fields. -/
def shape : Shape := ⟨"Config", ["common", "processor"]⟩

/-- Read a configuration. -/
def read : Reader Configuration :=
  Draft.record shape fun p ↦
    Configuration.mk
      <$> p.required "common" readCommon
      <*> p.required "processor" ProcessorSettings.read

/-- The configuration that a merged value tells. -/
def ofValue (v : Yaml.Value) : Except ConfigurationFault Configuration :=
  match Yaml.readText read v.toText with
  | .ok c => .ok c
  | .error fault => .error (.unfit fault)

/-- Load a configuration from a file; files may be included in each other to a depth. -/
def load {m : Type → Type} [Monad m] (readFile : String → m (Except String String)) (depth : Nat)
    (path : String) : m (Except ConfigurationFault Configuration) := do
  match ← Yaml.Include.load readFile Yaml.Value.documents depth path with
  | .ok v => pure (ofValue v)
  | .error fault => pure (.error (.including fault))

end Configuration
end RiskTypology
