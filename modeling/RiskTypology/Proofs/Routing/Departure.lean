import RiskTypology.Proofs.Routing.DefaultChannel

/-!
# How reports leave

A ready report leaves in one of three ways: scored on the default channel, scored on the
interdiction channel, or as it was gathered on the default channel when its definition is not to be
had. The main statements: whatever fails, everything routing sends is a report that leaves in one of
these ways, and the sends of a routing are those of its ready reports, one after the other.
-/

namespace RiskTypology

/-- Whether the definition of a typology is to be had. -/
def Routes.defines (routes : Routes) (id cfg : String) : Bool :=
  match routes.define id cfg with
  | .ok (some _) => true
  | _ => false

/-- The transaction as it leaves on the default channel with a scored report. -/
def Context.outgoing (c : Context) (counts : RuleCounts) : Transaction :=
  if counts.isComplete then c.transaction else c.transaction.minimal

section

variable {routes : Routes} {c : Context} {counts : RuleCounts} {r : TypologyResult} {s : Send}
  {id cfg : String}

/-- A definition is to be had if the look-up answers with one. -/
theorem Routes.defines_of_define {d : Definition} (h : routes.define id cfg = .ok (some d)) :
    routes.defines id cfg = true := by
  rw [defines, h]

/-- Without a definition the look-up answers with none, or fails. -/
theorem Routes.defines_eq_false_iff :
    routes.defines id cfg = false ↔ ∀ d, routes.define id cfg ≠ .ok (some d) := by
  unfold defines
  split
  · next d hd => simp [hd]
  · next hn => simpa using hn

variable (routes c counts r) in
/-- The sends by which a report leaves. -/
inductive Departure : Send → Prop
  | scored {d : Definition} (duration : UInt64) (hd : routes.define r.id r.cfg = .ok (some d)) :
    Departure ⟨[], { c.payload (r.scored d duration) with transaction := c.outgoing counts }⟩
  | interdicting {d : Definition} (duration : UInt64)
    (hd : routes.define r.id r.cfg = .ok (some d))
    (hv : Verdict.ofScore (d.score r.ruleResults).value d.workflow = .interdict) :
    Departure ⟨[routes.interdictionChannel], c.payload (r.scored d duration)⟩
  | unscored (duration : UInt64) (hd : routes.defines r.id r.cfg = false) :
    Departure ⟨[], c.payload { r with duration := some duration }⟩

/-- A report leaves under its own id and version. -/
theorem Departure.key_eq (h : Departure routes c counts r s) :
    s.payload.typologyResult.key = r.key := by
  cases h <;> rfl

/-- A scored report leaves on the default channel, and before that on the interdiction channel if
its verdict is to interdict. -/
theorem sends_scoredBlock (routes : Routes) (c : Context) (counts : RuleCounts) (r : TypologyResult)
    (d : Definition) (duration : UInt64) :
    (scoredBlock routes c counts r d duration).sends =
      (if Verdict.ofScore (d.score r.ruleResults).value d.workflow = .interdict
        then [⟨[routes.interdictionChannel], c.payload (r.scored d duration)⟩] else []) ++
        [⟨[], { c.payload (r.scored d duration) with transaction := c.outgoing counts }⟩] := by
  have hdefault : (scoredBlock routes c counts r d duration).default =
      { c.payload (r.scored d duration) with transaction := c.outgoing counts } := by
    simp only [scoredBlock, Context.outgoing]
    split <;> rfl
  rw [Block.sends, hdefault]
  congr 1
  simp only [scoredBlock]
  split <;> rfl

variable (routes c counts) in
/-- The sends by which a report leaves once it is ready, in order. -/
def departures (duration : UInt64) (r : TypologyResult) : List Send :=
  match routes.define r.id r.cfg with
  | .ok (some d) => (scoredBlock routes c counts r d duration).sends
  | _ => [⟨[], c.payload { r with duration := some duration }⟩]

/-- The block of a report sends what the report leaves by. -/
theorem sends_block? {duration : UInt64} {b : Block}
    (h : block? routes c counts duration r = some b) :
    b.sends = departures routes c counts duration r := by
  obtain ⟨d, hd, rfl⟩ | ⟨hd, notice, rfl⟩ := block?_cases routes c counts h
  · rw [departures, hd]
  · unfold departures
    split
    · next d he => exact absurd he (hd d)
    · rfl

/-- What a report leaves by is one of the ways for reports to leave. -/
theorem departure_of_mem_departures {duration : UInt64}
    (hs : s ∈ departures routes c counts duration r) : Departure routes c counts r s := by
  unfold departures at hs
  split at hs
  · next d hd =>
    rw [sends_scoredBlock] at hs
    rcases List.mem_append.mp hs with hs | hs
    · split at hs
      · next hv =>
        rw [List.mem_singleton.mp hs]
        exact .interdicting duration hd hv
      · cases hs
    · rw [List.mem_singleton.mp hs]
      exact .scored duration hd
  · next hd =>
    rw [List.mem_singleton.mp hs]
    exact .unscored duration (Routes.defines_eq_false_iff.mpr hd)

/-- Everything routing sends is a ready report that leaves. -/
theorem departure_of_mem_route {reports : List TypologyResult}
    (hs : s ∈ Effect.sends (route routes c counts reports).effects) :
    ∃ r ∈ reports, isReady c.networkMap r = true ∧ Departure routes c counts r s := by
  rw [route_eq, sends_perform _ _ _ (proper_blocksFrom routes c counts 0 reports),
    List.mem_flatMap] at hs
  obtain ⟨b, hb, hs⟩ := hs
  obtain ⟨duration, r, hr, h⟩ := block?_of_mem_blocksFrom routes c counts hb
  rw [sends_block? h] at hs
  refine ⟨r, hr, ?_, departure_of_mem_departures hs⟩
  rw [← isSome_block? routes c counts duration r, h, Option.isSome_some]

variable (routes c counts) in
/-- What shows of the sends of a routing, if times do not show, is what shows of the sends by which
the ready reports leave, in their order. -/
theorem map_sends_route {β : Type} {view : Send → β} {shown : TypologyResult → List β}
    (h : ∀ duration r, (departures routes c counts duration r).map view = shown r)
    (reports : List TypologyResult) :
    (Effect.sends (route routes c counts reports).effects).map view =
      (reports.filter (isReady c.networkMap)).flatMap shown := by
  have hb : ∀ duration r b, block? routes c counts duration r = some b →
      b.sends.map view = shown r := by
    intro duration r b hb
    rw [sends_block? hb, h]
  rw [route_eq, sends_perform _ _ _ (proper_blocksFrom routes c counts 0 reports), List.map_flatMap,
    List.flatMap_def, map_blocksFrom routes c counts hb, ← List.flatMap_def]

end
end RiskTypology
