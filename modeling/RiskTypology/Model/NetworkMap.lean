import RiskTypology.Model.RuleResult

/-!
# Network maps

Which typologies apply to a transaction and which rules each of them waits for. A typology may be
listed under several channels; it then waits for the rules of every listing.
-/

namespace RiskTypology

/-- A rule in a certain version. -/
structure Rule where
  id : String
  cfg : String
deriving DecidableEq, Repr

/-- One listing of a typology: its version and rules it waits for. -/
structure Typology where
  id : String
  cfg : String
  rules : List Rule
deriving DecidableEq, Repr

/-- A channel and its typologies. -/
structure Channel where
  id : String
  cfg : String
  typologies : List Typology
deriving DecidableEq, Repr

/-- A kind of message and the channels it goes through. -/
structure Message where
  id : String
  cfg : String
  txTp : String := ""
  channels : List Channel
deriving DecidableEq, Repr

/-- The network map of an event. -/
structure NetworkMap where
  active : Bool := false
  cfg : String := ""
  messages : List Message
deriving DecidableEq, Repr

namespace Rule

/-- The record's wire fields. -/
def shape : Shape := ⟨"Rule", ["id", "cfg"]⟩

/-- Read a rule. -/
def read : Reader Rule :=
  Draft.record shape fun p ↦
    Rule.mk <$> p.required "id" Draft.text <*> p.required "cfg" Draft.text

/-- The wire form. -/
def toJson (r : Rule) : Json := .obj [("id", .str r.id), ("cfg", .str r.cfg)]

end Rule

namespace Typology

/-- What identifies a typology: its id and version. -/
def key (t : Typology) : String × String := (t.id, t.cfg)

/-- Whether this listing waits for the rule of a result, in its version. -/
def requires (t : Typology) (r : RuleResult) : Bool :=
  t.rules.any fun rule ↦ rule.id == r.id && rule.cfg == r.cfg

/-- The record's wire fields. -/
def shape : Shape := ⟨"Typology", ["id", "cfg", "rules"]⟩

/-- Read a typology. -/
def read : Reader Typology :=
  Draft.record shape fun p ↦
    Typology.mk <$> p.required "id" Draft.text <*> p.required "cfg" Draft.text <*>
      p.required "rules" (Draft.list Rule.read)

/-- The wire form. -/
def toJson (t : Typology) : Json :=
  .obj [("id", .str t.id), ("cfg", .str t.cfg), ("rules", .arr (t.rules.map Rule.toJson))]

end Typology

namespace Channel

/-- The record's wire fields. -/
def shape : Shape := ⟨"Channel", ["id", "cfg", "typologies"]⟩

/-- Read a channel. -/
def read : Reader Channel :=
  Draft.record shape fun p ↦
    Channel.mk <$> p.required "id" Draft.text <*> p.required "cfg" Draft.text <*>
      p.required "typologies" (Draft.list Typology.read)

/-- The wire form. -/
def toJson (c : Channel) : Json :=
  .obj [("id", .str c.id), ("cfg", .str c.cfg),
    ("typologies", .arr (c.typologies.map Typology.toJson))]

end Channel

namespace Message

/-- The record's wire fields. -/
def shape : Shape := ⟨"Message", ["id", "cfg", "txTp", "channels"]⟩

/-- Read a message. -/
def read : Reader Message :=
  Draft.record shape fun p ↦
    Message.mk <$> p.required "id" Draft.text <*> p.required "cfg" Draft.text <*>
      p.orElse "txTp" "" Draft.text <*> p.required "channels" (Draft.list Channel.read)

/-- The wire form. -/
def toJson (m : Message) : Json :=
  .obj [("id", .str m.id), ("cfg", .str m.cfg), ("txTp", .str m.txTp),
    ("channels", .arr (m.channels.map Channel.toJson))]

end Message

namespace NetworkMap

/-- The record's wire fields. -/
def shape : Shape := ⟨"NetworkMap", ["active", "cfg", "messages"]⟩

/-- Read a network map. -/
def read : Reader NetworkMap :=
  Draft.record shape fun p ↦
    NetworkMap.mk <$> p.orElse "active" false Draft.flag <*> p.orElse "cfg" "" Draft.text <*>
      p.required "messages" (Draft.list Message.read)

/-- The wire form. -/
def toJson (m : NetworkMap) : Json :=
  .obj [("active", .bool m.active), ("cfg", .str m.cfg),
    ("messages", .arr (m.messages.map Message.toJson))]

/-- Every listing of a typology, in the order of the map. -/
def typologies (m : NetworkMap) : List Typology :=
  m.messages.flatMap fun message ↦ message.channels.flatMap (·.typologies)

/-- The listings of one typology. -/
def listings (m : NetworkMap) (id cfg : String) : List Typology :=
  m.typologies.filter fun t ↦ t.id == id && t.cfg == cfg

/-- The first listing of a typology. -/
def find? (m : NetworkMap) (id cfg : String) : Option Typology :=
  m.typologies.find? fun t ↦ t.id == id && t.cfg == cfg

/-- The distinct ids of the rules some listings wait for. -/
def ruleIds (listings : List Typology) : List String :=
  (listings.flatMap fun t ↦ t.rules.map (·.id)).eraseDups

/-- The distinct rule ids a typology waits for, over all its listings. -/
def requiredRuleIds (m : NetworkMap) (id cfg : String) : List String := ruleIds (m.listings id cfg)

/-- The distinct rule ids any typology of the map waits for. -/
def allRuleIds (m : NetworkMap) : List String := ruleIds m.typologies

/-- How many different rules the map waits for. -/
def ruleCount (m : NetworkMap) : Nat := m.allRuleIds.length

end NetworkMap
end RiskTypology
