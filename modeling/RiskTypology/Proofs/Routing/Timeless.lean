import RiskTypology.Routing

/-!
# Routing apart from time

How long evaluations take shows in the durations of the reports and nowhere else. So routings with
the same definitions, the same interdiction channel and sends that fail by their channels alone do
the same but for these durations, whatever place in the pass an evaluation or a send has.
-/

namespace RiskTypology

/-- The report without the time its evaluation took. -/
def TypologyResult.timeless (r : TypologyResult) : TypologyResult := { r with duration := none }

/-- The payload without the time its evaluation took. -/
def Payload.timeless (p : Payload) : Payload :=
  { p with typologyResult := p.typologyResult.timeless }

/-- The send without the time the evaluation of its payload took. -/
def Send.timeless (s : Send) : Send := { s with payload := s.payload.timeless }

/-- The effect without the time an evaluation took. -/
def Effect.timeless : Effect → Effect
  | .sent s => .sent s.timeless
  | e => e

/-- The block without the time its evaluation took. -/
def Block.timeless (b : Block) : Block :=
  ⟨b.before, b.interdiction.map Send.timeless, b.default.timeless⟩

namespace Block

/-- The payload for the default channel of a block without times is without times. -/
@[simp] theorem default_timeless (b : Block) : b.timeless.default = b.default.timeless := rfl

/-- The sends of a block without times are its sends without times. -/
theorem sends_timeless (b : Block) : b.timeless.sends = b.sends.map Send.timeless := by
  cases hi : b.interdiction <;> simp [sends, timeless, hi, Send.timeless]

end Block

section Blocks

variable {routes routes' : Routes} (hdefine : routes.define = routes'.define)
  (hchannel : routes.interdictionChannel = routes'.interdictionChannel)
  (c : Context) (counts : RuleCounts)

include hchannel in
private theorem timeless_scoredBlock (r : TypologyResult) (d : Definition)
    (duration duration' : UInt64) :
    (scoredBlock routes c counts r d duration).timeless =
      (scoredBlock routes' c counts r d duration').timeless := by
  simp only [scoredBlock, Block.timeless, hchannel]
  congr 1
  · split <;> rfl
  · split <;> rfl

include hdefine hchannel in
/-- The block of a report does not depend on the time its evaluation takes. -/
theorem map_timeless_block? (duration duration' : UInt64) (r : TypologyResult) :
    (block? routes c counts duration r).map Block.timeless =
      (block? routes' c counts duration' r).map Block.timeless := by
  simp only [block?, hdefine]
  split
  · split
    · exact congrArg some (timeless_scoredBlock hchannel c counts r _ duration duration')
    · rfl
    · rfl
  · rfl

include hdefine hchannel in
/-- The blocks of reports do not depend on the times their evaluations take. -/
theorem map_timeless_blocksFrom (place place' : Nat) (reports : List TypologyResult) :
    (blocksFrom routes c counts place reports).map Block.timeless =
      (blocksFrom routes' c counts place' reports).map Block.timeless := by
  induction reports generalizing place place' with
  | nil => rfl
  | cons r rest ih =>
    rw [blocksFrom_cons, blocksFrom_cons, List.map_append, List.map_append, ih, ← Option.toList_map,
      ← Option.toList_map, map_timeless_block? hdefine hchannel]

end Blocks

section Deliveries

variable {deliver deliver' : Nat → Send → Option String}
  (hdeliver : ∀ number number' s s', s.channels = s'.channels →
    deliver number s = deliver' number' s')

include hdeliver in
private theorem map_timeless_sendEffects {s s' : Send} (h : s.timeless = s'.timeless)
    (number number' : Nat) :
    (sendEffects deliver number s).map Effect.timeless =
      (sendEffects deliver' number' s').map Effect.timeless := by
  have hc : s.channels = s'.channels := (Send.mk.inj h).1
  have hd : s.destination = s'.destination := by rw [Send.destination, hc, Send.destination]
  unfold sendEffects
  rw [hdeliver number number' s s' hc]
  cases deliver' number' s' with
  | none => simp [Effect.timeless, h]
  | some error => simp [Effect.timeless, h, hd]

include hdeliver in
private theorem map_timeless_deliverAll {ss ss' : List Send}
    (h : ss.map Send.timeless = ss'.map Send.timeless) (number number' : Nat) :
    (deliverAll deliver number ss).map Effect.timeless =
      (deliverAll deliver' number' ss').map Effect.timeless := by
  induction ss generalizing ss' number number' with
  | nil =>
    rw [List.map_nil, eq_comm, List.map_eq_nil_iff] at h
    rw [h]
    rfl
  | cons s rest ih =>
    cases ss' with
    | nil => cases h
    | cons s' rest' =>
      obtain ⟨hs, hrest⟩ := List.cons.inj h
      rw [deliverAll, deliverAll, List.map_append, List.map_append,
        map_timeless_sendEffects hdeliver hs number number', ih hrest]

include hdeliver in
/-- What blocks do depends on the blocks without times and on the channels to which sends fail. -/
theorem map_timeless_perform {blocks blocks' : List Block}
    (h : blocks.map Block.timeless = blocks'.map Block.timeless) (number number' : Nat) :
    (perform deliver number blocks).map Effect.timeless =
      (perform deliver' number' blocks').map Effect.timeless := by
  induction blocks generalizing blocks' number number' with
  | nil =>
    rw [List.map_nil, eq_comm, List.map_eq_nil_iff] at h
    rw [h]
    rfl
  | cons b rest ih =>
    cases blocks' with
    | nil => cases h
    | cons b' rest' =>
      obtain ⟨hb, hrest⟩ := List.cons.inj h
      have hbefore : b.before = b'.before := (Block.mk.inj hb).1
      have hsends : b.sends.map Send.timeless = b'.sends.map Send.timeless := by
        rw [← Block.sends_timeless, hb, Block.sends_timeless]
      rw [perform, perform, List.map_append, List.map_append, List.map_append, List.map_append,
        hbefore, map_timeless_deliverAll hdeliver hsends number number', ih hrest]

end Deliveries

/-- The last payload of a routing, without its time, depends on the definitions and the interdiction
channel. -/
theorem map_timeless_last_route {routes routes' : Routes} (hdefine : routes.define = routes'.define)
    (hchannel : routes.interdictionChannel = routes'.interdictionChannel)
    (c : Context) (counts : RuleCounts) (reports : List TypologyResult) :
    (route routes c counts reports).last.map Payload.timeless =
      (route routes' c counts reports).last.map Payload.timeless := by
  have hl := congrArg (fun blocks : List Block ↦ blocks.getLast?.map Block.default)
    (map_timeless_blocksFrom hdefine hchannel c counts 0 0 reports)
  simpa [route_eq, List.getLast?_map, Option.map_map, Function.comp_def] using hl

/-- What routing does, without times, depends on the definitions, the interdiction channel and the
channels to which sends fail. -/
theorem route_timeless {routes routes' : Routes} (hdefine : routes.define = routes'.define)
    (hchannel : routes.interdictionChannel = routes'.interdictionChannel)
    (hdeliver : ∀ number number' s s', s.channels = s'.channels →
      routes.deliver number s = routes'.deliver number' s')
    (c : Context) (counts : RuleCounts) (reports : List TypologyResult) :
    (route routes c counts reports).effects.map Effect.timeless =
        (route routes' c counts reports).effects.map Effect.timeless ∧
      (route routes c counts reports).last.map Payload.timeless =
        (route routes' c counts reports).last.map Payload.timeless := by
  have hblocks := map_timeless_blocksFrom hdefine hchannel c counts 0 0 reports
  exact ⟨map_timeless_perform hdeliver hblocks 0 0,
    map_timeless_last_route hdefine hchannel c counts reports⟩

end RiskTypology
