import RiskTypology.Effect
import RiskTypology.Evaluation

/-!
# Routing

Every typology that has all its rule results is scored and sent downstream: to the default
channel, and before that to the interdiction channel when its score calls for it. As long as rules
of the transaction are outstanding, what leaves on the default channel is cut down to the minimal
transaction. A typology without definition leaves unscored, as it is.

What is sent is decided first, as blocks; whether a send fails afterwards changes no block.
-/

namespace RiskTypology

/-- Rule result counts for a transaction as a whole. -/
structure RuleCounts where
  /-- Distinct rule ids gathered so far. -/
  stored : Nat
  /-- Distinct rule ids the map waits for. -/
  total : Nat
deriving DecidableEq, Repr

/-- Whether nothing is outstanding any more. -/
def RuleCounts.isComplete (c : RuleCounts) : Bool := c.total ≤ c.stored

/-- What an event has for all its payloads in common. -/
structure Context where
  networkMap : NetworkMap
  transaction : Transaction
  metadata : Option Metadata

/-- The payload of a report. -/
def Context.payload (c : Context) (r : TypologyResult) : Payload :=
  ⟨r, c.transaction, c.networkMap, c.metadata⟩

/-- What routing relies on. -/
structure Routes where
  /-- Look up the definition of a typology, by id and version, whenever it is asked for. -/
  define : String → String → Except String (Option Definition)
  interdictionChannel : String
  /-- Outcome of the send of a given number within the pass: the error, if it fails. -/
  deliver : Nat → Send → Option String
  /-- Nanoseconds taken by the evaluation of a given number. -/
  elapsed : Nat → UInt64

/-- What is done for one report: notices and counts, and then sends. -/
structure Block where
  before : List Effect
  interdiction : Option Send
  default : Payload

namespace Block

/-- The sends of a block, interdiction first. -/
def sends (b : Block) : List Send := b.interdiction.toList ++ [⟨[], b.default⟩]

end Block

/-- Whether every rule the typology waits for has reported. -/
def isReady (map : NetworkMap) (r : TypologyResult) : Bool :=
  (map.requiredRuleIds r.id r.cfg).length ≤ r.gatheredCount

/-- The report with its score. The alert threshold stays as it was when the definition has none. -/
def TypologyResult.scored (r : TypologyResult) (d : Definition) (duration : UInt64) :
    TypologyResult :=
  let e := d.score r.ruleResults
  { r with
    result := e.value
    ruleResults := e.results
    review := (Verdict.ofScore e.value d.workflow).needsReview
    workflow := ⟨d.workflow.alert.getD r.workflow.alert, d.workflow.interdiction⟩
    duration := some duration }

/-- The notices and counts of a scored report. -/
def scoringEffects (e : Evaluation) (t : Thresholds) : List Effect :=
  (if e.isNumeric then [] else [.told (.notNumeric e.unresolved)]) ++
    (if t.alert.isSome then [] else [.told .alertThresholdMissing]) ++
    (Verdict.ofScore e.value t).metrics.map .counted ++ [.counted .evaluations]

/-- The block of a report whose definition is known. -/
def scoredBlock (routes : Routes) (c : Context) (counts : RuleCounts) (r : TypologyResult)
    (d : Definition) (duration : UInt64) : Block :=
  let e := d.score r.ruleResults
  let full := c.payload (r.scored d duration)
  let interdicts := Verdict.ofScore e.value d.workflow = .interdict
  { before := scoringEffects e d.workflow
    interdiction := if interdicts then some ⟨[routes.interdictionChannel], full⟩ else none
    default :=
      if counts.isComplete then full else { full with transaction := c.transaction.minimal } }

/-- The block of a report whose definition is not to be had. -/
def unscoredBlock (c : Context) (r : TypologyResult) (duration : UInt64) (notice : Notice) :
    Block :=
  ⟨[.told notice], none, c.payload { r with duration := some duration }⟩

/-- The block of a report: none while it waits for more rule results. -/
def block? (routes : Routes) (c : Context) (counts : RuleCounts) (duration : UInt64)
    (r : TypologyResult) : Option Block :=
  if isReady c.networkMap r then
    match routes.define r.id r.cfg with
    | .ok (some d) => some (scoredBlock routes c counts r d duration)
    | .ok none => some (unscoredBlock c r duration .definitionMissing)
    | .error e => some (unscoredBlock c r duration (.definitionUnavailable e))
  else none

/-- Answers to the look-ups of definitions, by the place of the report that asks, and its id and
version. No report asks twice, so every look-up of a routing has an answer of its own. -/
abbrev LookUps := Nat → String → String → Except String (Option Definition)

/-- What the report at a place relies on when look-ups have their own answers. -/
def Routes.asking (routes : Routes) (lookUps : LookUps) (place : Nat) : Routes :=
  { routes with define := lookUps place }

/-- The blocks of reports, numbered from `place`, when look-ups have their own answers. -/
def blocksAsking (routes : Routes) (lookUps : LookUps) (c : Context) (counts : RuleCounts) :
    Nat → List TypologyResult → List Block
  | _, [] => []
  | place, r :: rest =>
    (block? (routes.asking lookUps place) c counts (routes.elapsed place) r).toList ++
      blocksAsking routes lookUps c counts (place + 1) rest

/-- The blocks of reports, numbered from `place`. -/
def blocksFrom (routes : Routes) (c : Context) (counts : RuleCounts) (place : Nat)
    (reports : List TypologyResult) : List Block :=
  blocksAsking routes (fun _ ↦ routes.define) c counts place reports

/-- The block of the first report comes before those of the others. -/
theorem blocksFrom_cons (routes : Routes) (c : Context) (counts : RuleCounts) (place : Nat)
    (r : TypologyResult) (rest : List TypologyResult) :
    blocksFrom routes c counts place (r :: rest) =
      (block? routes c counts (routes.elapsed place) r).toList ++
        blocksFrom routes c counts (place + 1) rest := rfl

/-- A send with what comes of it. -/
def sendEffects (deliver : Nat → Send → Option String) (number : Nat) (s : Send) : List Effect :=
  match deliver number s with
  | none => [.sent s]
  | some error =>
    [.sent s, .counted .dispatchFailures, .told (.sendFailed s.destination error)]

/-- Sends with what comes of them, numbered from `number`. -/
def deliverAll (deliver : Nat → Send → Option String) : Nat → List Send → List Effect
  | _, [] => []
  | number, s :: rest => sendEffects deliver number s ++ deliverAll deliver (number + 1) rest

/-- Everything blocks do, their sends numbered from `number`. -/
def perform (deliver : Nat → Send → Option String) : Nat → List Block → List Effect
  | _, [] => []
  | number, b :: rest =>
    b.before ++ deliverAll deliver number b.sends ++
      perform deliver (number + b.sends.length) rest

/-- What routing did. -/
structure Routed where
  effects : List Effect
  /-- The last payload for the default channel. -/
  last : Option Payload

/-- Score every ready report and send it downstream, when look-ups have their own answers. -/
def routeAsking (routes : Routes) (lookUps : LookUps) (c : Context) (counts : RuleCounts)
    (reports : List TypologyResult) : Routed :=
  let blocks := blocksAsking routes lookUps c counts 0 reports
  ⟨perform routes.deliver 0 blocks, blocks.getLast?.map (·.default)⟩

/-- Score every ready report and send it downstream. -/
def route (routes : Routes) (c : Context) (counts : RuleCounts) (reports : List TypologyResult) :
    Routed :=
  routeAsking routes (fun _ ↦ routes.define) c counts reports

/-- Routing does what its blocks hold, and answers with the last payload for the default channel. -/
theorem route_eq (routes : Routes) (c : Context) (counts : RuleCounts)
    (reports : List TypologyResult) :
    route routes c counts reports =
      ⟨perform routes.deliver 0 (blocksFrom routes c counts 0 reports),
        (blocksFrom routes c counts 0 reports).getLast?.map (·.default)⟩ := rfl

end RiskTypology
