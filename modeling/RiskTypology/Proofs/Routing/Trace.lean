import Mathlib.Data.List.Forall2
import RiskTypology.Proofs.Requirement
import RiskTypology.Proofs.Routing.Departure

/-!
# Traces of routing

What routing sends for each report, told by what is to be seen from outside: nothing while rules of
the typology are outstanding, the report as it was given if its definition is not to be had, and
otherwise the scored report, which goes to the interdiction channel first if the score reaches that
threshold. The main statement: routing sends the traces of its reports one after the other, whatever
fails, and answers with the last payload for the default channel.
-/

namespace RiskTypology

/-- What a report says once it has been scored by a definition, whatever time that took. -/
structure Definition.Scores (d : Definition) (r scored : TypologyResult) : Prop where
  key : scored.key = r.key
  result : scored.result = (d.score r.ruleResults).value
  ruleResults : scored.ruleResults = (d.score r.ruleResults).results
  review : scored.review = true ↔ (∃ t ∈ d.workflow.interdiction, scored.result ≥ t) ∨
    ∃ t ∈ d.workflow.alert, scored.result ≥ t
  alert : scored.workflow.alert = d.workflow.alert.getD r.workflow.alert
  interdiction : scored.workflow.interdiction = d.workflow.interdiction

/-- Whether a report has gathered fewer rule ids than the listings of its typology have. -/
def Context.Awaits (c : Context) (r : TypologyResult) : Prop :=
  (r.ruleResults.map (·.id)).toFinset.card <
    (((c.networkMap.listings r.id r.cfg).flatMap (·.rules)).map (·.id)).toFinset.card

/-- The sends of one report, if its look-up would be answered so. The payloads of a scored report
differ in their transactions alone. -/
inductive Trace (answer : Except String (Option Definition)) (channel : String) (c : Context)
    (counts : RuleCounts) (r : TypologyResult) : List Send → Prop
  | waiting (h : c.Awaits r) : Trace answer channel c counts r []
  | unscored (duration : UInt64) (h : ¬ c.Awaits r) (hd : ∀ d, answer ≠ .ok (some d)) :
    Trace answer channel c counts r [⟨[], c.payload { r with duration := some duration }⟩]
  | scored {d : Definition} {scored : TypologyResult} (h : ¬ c.Awaits r)
    (hd : answer = .ok (some d)) (hs : d.Scores r scored)
    (hi : ¬ ∃ t ∈ d.workflow.interdiction, scored.result ≥ t) :
    Trace answer channel c counts r
      [⟨[], { c.payload scored with transaction := c.outgoing counts }⟩]
  | interdicted {d : Definition} {scored : TypologyResult} (h : ¬ c.Awaits r)
    (hd : answer = .ok (some d)) (hs : d.Scores r scored)
    (hi : ∃ t ∈ d.workflow.interdiction, scored.result ≥ t) :
    Trace answer channel c counts r
      [⟨[channel], c.payload scored⟩,
        ⟨[], { c.payload scored with transaction := c.outgoing counts }⟩]

variable (routes : Routes) (c : Context) (counts : RuleCounts)

/-- The scored report says what is to be said. -/
theorem Definition.scores_scored (d : Definition) (r : TypologyResult) (duration : UInt64) :
    d.Scores r (r.scored d duration) where
  key := rfl
  result := rfl
  ruleResults := rfl
  review := by
    simp only [← reaches_iff]
    exact Verdict.needsReview_ofScore_iff
  alert := rfl
  interdiction := rfl

/-- A report is ready when it does not wait any more. -/
theorem isReady_iff_not_awaits {r : TypologyResult} :
    isReady c.networkMap r = true ↔ ¬ c.Awaits r := by
  have hgathered : r.gatheredCount = (r.ruleResults.map (·.id)).toFinset.card :=
    Distinct.length_eraseDups _
  have hrequired := NetworkMap.length_ruleIds (c.networkMap.listings r.id r.cfg)
  rw [isReady, decide_eq_true_iff, Context.Awaits, Nat.not_lt, ← hgathered, ← hrequired]
  rfl

/-- A report that does not wait leaves its trace. -/
theorem trace_departures {r : TypologyResult} (h : ¬ c.Awaits r) (duration : UInt64) :
    Trace (routes.define r.id r.cfg) routes.interdictionChannel c counts r
      (departures routes c counts duration r) := by
  unfold departures
  split
  · next d hd =>
    have hs := d.scores_scored r duration
    have hi : Verdict.ofScore (d.score r.ruleResults).value d.workflow = .interdict ↔
        ∃ t ∈ d.workflow.interdiction, (r.scored d duration).result ≥ t := by
      rw [Verdict.ofScore_eq_interdict_iff, reaches_iff]
      rfl
    rw [sends_scoredBlock]
    by_cases hv : Verdict.ofScore (d.score r.ruleResults).value d.workflow = .interdict
    · rw [if_pos hv]
      exact .interdicted h hd hs (hi.mp hv)
    · rw [if_neg hv]
      exact .scored h hd hs fun ht ↦ hv (hi.mpr ht)
  · next hd => exact .unscored duration h hd

/-- The block of a report, if there is one, sends the trace of the report. -/
theorem trace_block? (duration : UInt64) (r : TypologyResult) :
    Trace (routes.define r.id r.cfg) routes.interdictionChannel c counts r
      ((block? routes c counts duration r).toList.flatMap Block.sends) := by
  have hready := isSome_block? routes c counts duration r
  cases hb : block? routes c counts duration r with
  | none =>
    rw [hb, Option.isSome_none] at hready
    have hwaits : c.Awaits r := by
      by_contra hn
      rw [(isReady_iff_not_awaits c).mpr hn] at hready
      cases hready
    exact .waiting hwaits
  | some b =>
    rw [hb, Option.isSome_some] at hready
    have hwaits := (isReady_iff_not_awaits c).mp hready.symm
    rw [Option.toList_some, List.flatMap_singleton, sends_block? hb]
    exact trace_departures routes c counts hwaits duration

/-- A report at a place of a list leaves some sends as its trace, if its look-up is answered as the
look-ups at that place are. -/
def TraceAt (lookUps : LookUps) (placed : TypologyResult × Nat) (sends : List Send) : Prop :=
  Trace (lookUps placed.2 placed.1.id placed.1.cfg) routes.interdictionChannel c counts placed.1
    sends

/-- The blocks of a routing send the traces of its reports, one after the other. -/
theorem traces_blocksAsking (lookUps : LookUps) (place : Nat) (reports : List TypologyResult) :
    ∃ traces, List.Forall₂ (TraceAt routes c counts lookUps) (reports.zipIdx place) traces ∧
      (blocksAsking routes lookUps c counts place reports).flatMap Block.sends =
        traces.flatten := by
  induction reports generalizing place with
  | nil => exact ⟨[], .nil, rfl⟩
  | cons r rest ih =>
    obtain ⟨traces, htraces, hsends⟩ := ih (place + 1)
    have htrace := trace_block? (routes.asking lookUps place) c counts (routes.elapsed place) r
    refine ⟨_ :: traces, .cons htrace htraces, ?_⟩
    rw [blocksAsking, List.flatMap_append, hsends, List.flatten_cons]

/-- Routing sends the traces of its reports, one after the other, whatever each look-up says, even
where two are for one typology, and whichever sends fail. What it answers with is the last payload
it handed to the default channel. -/
theorem traces_route (lookUps : LookUps) (reports : List TypologyResult) :
    (∃ traces, List.Forall₂ (TraceAt routes c counts lookUps) reports.zipIdx traces ∧
      Effect.sends (routeAsking routes lookUps c counts reports).effects = traces.flatten) ∧
    (routeAsking routes lookUps c counts reports).last =
      (Effect.defaultPayloads (routeAsking routes lookUps c counts reports).effects).getLast? := by
  have hproper := proper_blocksAsking routes c counts lookUps 0 reports
  constructor
  · obtain ⟨traces, htraces, hsends⟩ := traces_blocksAsking routes c counts lookUps 0 reports
    refine ⟨traces, htraces, ?_⟩
    rw [routeAsking, sends_perform _ _ _ hproper, hsends]
  · rw [routeAsking, defaultPayloads_perform _ _ _ hproper, List.getLast?_map]

private def unsteadyRoutes : Routes :=
  ⟨fun _ _ ↦ .ok none, "cms", fun number _ ↦ if number = 0 then some "down" else none,
    fun place ↦ place.toUInt64⟩

private def unsteadyMap : NetworkMap :=
  { messages := [⟨"004@1.0.0", "1.0.0", "pacs.002.001.12",
      [⟨"001@1.0.0", "1.0.0", [⟨"T", "1", [⟨"A", "1"⟩]⟩, ⟨"T", "1", [⟨"B", "1"⟩, ⟨"A", "2"⟩]⟩]⟩]⟩] }

private def constantDefinition (interdiction : Option Float) : Definition :=
  { id := "T", cfg := "1", rules := [], expression := .literal 9.0,
    workflow := { alert := some 5.0, interdiction := interdiction } }

private def unsteadyLookUps : LookUps := fun place _ _ ↦
  match place with
  | 1 => .error "down"
  | 2 => .ok (some (constantDefinition (some 7.0)))
  | 3 => .ok none
  | _ => .ok (some (constantDefinition none))

private def reportOf (ids : List String) : TypologyResult :=
  .unscored "T" "1" (ids.map fun id ↦ { id := id, cfg := "1", subRuleRef := ".01" })

private def datedTransaction : Transaction :=
  ⟨"pacs.002.001.12", ⟨⟨"m", [("CreDtTm", .str "2024-01-01T00:00:00Z")]⟩, []⟩, []⟩

/-- One typology five times, with other results and other answers each time. The first report has
the same rule twice and waits for another; then its look-up fails, succeeds, finds nothing and
succeeds with no interdiction threshold, while one send fails. What leaves scored on the default
channel is cut down, since rules are outstanding. -/
theorem traces_of_repeated_typology :
    let c : Context := ⟨unsteadyMap, datedTransaction, some ⟨some "trace", []⟩⟩
    let reports := [reportOf ["A", "A"], reportOf ["B", "A"], reportOf ["A", "B", "A"],
      reportOf ["A", "B"], reportOf ["B", "A"]]
    let scored (r : TypologyResult) (interdiction : Option Float) (duration : UInt64) :
        TypologyResult :=
      ⟨"T", "1", 9.0, r.ruleResults, true, ⟨5.0, interdiction⟩, some duration⟩
    let routed := routeAsking unsteadyRoutes unsteadyLookUps c ⟨2, 3⟩ reports
    let sends : List Send :=
      [⟨[], ⟨{ reportOf ["B", "A"] with duration := some 1 }, datedTransaction, unsteadyMap,
          c.metadata⟩⟩,
        ⟨["cms"], ⟨scored (reportOf ["A", "B", "A"]) (some 7.0) 2, datedTransaction, unsteadyMap,
          c.metadata⟩⟩,
        ⟨[], ⟨scored (reportOf ["A", "B", "A"]) (some 7.0) 2, datedTransaction.minimal, unsteadyMap,
          c.metadata⟩⟩,
        ⟨[], ⟨{ reportOf ["A", "B"] with duration := some 3 }, datedTransaction, unsteadyMap,
          c.metadata⟩⟩,
        ⟨[], ⟨scored (reportOf ["B", "A"]) none 4, datedTransaction.minimal, unsteadyMap,
          c.metadata⟩⟩]
    Effect.sends routed.effects = sends ∧
      (∃ traces, List.Forall₂ (TraceAt unsteadyRoutes c ⟨2, 3⟩ unsteadyLookUps) reports.zipIdx
        traces ∧ sends = traces.flatten) ∧
      routed.last = (sends.getLast?).map (·.payload) := by
  intro c reports scored routed sends
  have hsends : Effect.sends routed.effects = sends := rfl
  obtain ⟨⟨traces, htraces, hflat⟩, hlast⟩ :=
    traces_route unsteadyRoutes c ⟨2, 3⟩ unsteadyLookUps reports
  exact ⟨hsends, ⟨traces, htraces, hsends.symm.trans hflat⟩, hlast.trans rfl⟩

end RiskTypology
