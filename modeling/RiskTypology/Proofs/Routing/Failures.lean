import RiskTypology.Proofs.Routing.DefaultChannel
import RiskTypology.Proofs.Routing.Timeless

/-!
# Failing sends

A send that fails is counted and told of, and shows in nothing else: apart from that routing does
what its blocks hold, whichever sends fail, and as many failures are counted as sends fail.
-/

namespace RiskTypology

/-- Whether an effect comes of a failed send. -/
def Effect.ofFailure : Effect → Bool
  | .counted .dispatchFailures => true
  | .told (.sendFailed _ _) => true
  | _ => false

/-- The effects apart from those that come of failed sends. -/
def Effect.undisturbed (effects : List Effect) : List Effect := effects.filter (!·.ofFailure)

/-- How many of some sends fail, numbered from `number`. -/
def failures (deliver : Nat → Send → Option String) (number : Nat) (sends : List Send) : Nat :=
  (sends.zipIdx number).countP fun s ↦ (deliver s.2 s.1).isSome

namespace Effect

/-- A longer run apart from failures. -/
@[simp] theorem undisturbed_append (a b : List Effect) :
    undisturbed (a ++ b) = undisturbed a ++ undisturbed b := List.filter_append a b

/-- Counts of a longer run add up. -/
@[simp] theorem count_append (a b : List Effect) (m : Metric) :
    count (a ++ b) m = count a m + count b m := by
  rw [count, metrics_append, List.count_append, count, count]

/-- Effects none of which comes of a failure are all undisturbed. -/
theorem undisturbed_eq_self {effects : List Effect} (h : ∀ e ∈ effects, e.ofFailure = false) :
    undisturbed effects = effects :=
  List.filter_eq_self.mpr fun e he ↦ by simp [h e he]

/-- Where nothing comes of a failure none is counted. -/
theorem count_dispatchFailures_eq_zero {effects : List Effect}
    (h : ∀ e ∈ effects, e.ofFailure = false) : count effects .dispatchFailures = 0 := by
  rw [count, List.count_eq_zero, metrics, List.mem_filterMap]
  rintro ⟨e, he, hm⟩
  have hf := h e he
  cases e with
  | counted m =>
    cases hm
    cases hf
  | sent s => cases hm
  | told n => cases hm

/-- Failures do not show in what is sent. -/
theorem sends_undisturbed (effects : List Effect) :
    sends (undisturbed effects) = sends effects := by
  induction effects with
  | nil => rfl
  | cons e rest ih =>
    rw [← List.singleton_append, undisturbed_append, sends_append, sends_append, ih]
    congr 1
    cases e with
    | sent s => rfl
    | counted m => cases m <;> rfl
    | told n => cases n <;> rfl

/-- Failures show in no count but their own. -/
theorem count_undisturbed {m : Metric} (h : m ≠ .dispatchFailures) (effects : List Effect) :
    count (undisturbed effects) m = count effects m := by
  induction effects with
  | nil => rfl
  | cons e rest ih =>
    rw [← List.singleton_append, undisturbed_append, count_append, count_append, ih]
    congr 1
    cases e with
    | sent s => rfl
    | told n => cases n <;> rfl
    | counted counted =>
      cases counted with
      | dispatchFailures =>
        exact (List.count_eq_zero.mpr fun hm ↦ h (List.mem_singleton.mp hm)).symm
      | _ => rfl

/-- Times do not show in counts. -/
theorem count_map_timeless (effects : List Effect) (m : Metric) :
    count (effects.map timeless) m = count effects m := by
  have hm : metrics (effects.map timeless) = metrics effects := by
    rw [metrics, List.filterMap_map, metrics]
    congr 1
    funext e
    cases e <;> rfl
  rw [count, hm, count]

/-- Without times the sends are sent without times. -/
theorem sends_map_timeless (effects : List Effect) :
    sends (effects.map timeless) = (sends effects).map Send.timeless := by
  rw [sends, List.filterMap_map, sends, List.map_filterMap]
  congr 1
  funext e
  cases e <;> rfl

/-- What is the same apart from failures and times sends the same apart from times. -/
theorem map_timeless_sends {effects others : List Effect}
    (h : (undisturbed effects).map timeless = (undisturbed others).map timeless) :
    (sends effects).map Send.timeless = (sends others).map Send.timeless := by
  rw [← sends_undisturbed, ← sends_map_timeless, h, sends_map_timeless, sends_undisturbed]

end Effect

section

variable (deliver : Nat → Send → Option String) (number : Nat)

/-- Failures among the sends of a longer run. -/
theorem failures_append (ss ss' : List Send) :
    failures deliver number (ss ++ ss') =
      failures deliver number ss + failures deliver (number + ss.length) ss' := by
  rw [failures, List.zipIdx_append, List.countP_append, failures, failures]

/-- Apart from failures a delivery is its sends. -/
theorem undisturbed_deliverAll (ss : List Send) :
    Effect.undisturbed (deliverAll deliver number ss) = ss.map .sent := by
  induction ss generalizing number with
  | nil => rfl
  | cons s rest ih =>
    rw [deliverAll, Effect.undisturbed_append, ih, List.map_cons, sendEffects]
    cases deliver number s <;> rfl

/-- A delivery counts the sends that fail. -/
theorem count_failures_deliverAll (ss : List Send) :
    Effect.count (deliverAll deliver number ss) .dispatchFailures =
      failures deliver number ss := by
  induction ss generalizing number with
  | nil => rfl
  | cons s rest ih =>
    rw [deliverAll, Effect.count_append, ih, ← List.singleton_append, failures_append, sendEffects]
    congr 1
    cases hd : deliver number s <;> simp [failures, hd, Effect.count, Effect.metrics]

variable {blocks : List Block} (h : ∀ b ∈ blocks, ∀ e ∈ b.before, e.ofFailure = false)

include h in
/-- Apart from failures blocks do what they hold, in order, whichever sends fail. -/
theorem undisturbed_perform :
    Effect.undisturbed (perform deliver number blocks) =
      blocks.flatMap fun b ↦ b.before ++ b.sends.map .sent := by
  induction blocks generalizing number with
  | nil => rfl
  | cons b rest ih =>
    rw [List.forall_mem_cons] at h
    rw [perform, Effect.undisturbed_append, Effect.undisturbed_append,
      Effect.undisturbed_eq_self h.1, undisturbed_deliverAll, ih _ h.2, List.flatMap_cons]

include h in
/-- Blocks count the sends that fail. -/
theorem count_failures_perform :
    Effect.count (perform deliver number blocks) .dispatchFailures =
      failures deliver number (blocks.flatMap Block.sends) := by
  induction blocks generalizing number with
  | nil => rfl
  | cons b rest ih =>
    rw [List.forall_mem_cons] at h
    rw [perform, Effect.count_append, Effect.count_append,
      Effect.count_dispatchFailures_eq_zero h.1, count_failures_deliverAll, ih _ h.2, Nat.zero_add,
      List.flatMap_cons, failures_append]

end

section

variable (routes : Routes) (c : Context) (counts : RuleCounts)

/-- Before its sends a block does nothing that comes of a failure. -/
theorem ofFailure_before_block? {duration : UInt64} {r : TypologyResult} {b : Block}
    (h : block? routes c counts duration r = some b) : ∀ e ∈ b.before, e.ofFailure = false := by
  intro e he
  simp only [block?] at h
  split at h
  · split at h <;> cases h
    · obtain rfl | rfl | ⟨m, hm, rfl⟩ := mem_scoringEffects he
      · rfl
      · rfl
      · cases m with
        | dispatchFailures => exact absurd rfl hm
        | _ => rfl
    · rw [List.mem_singleton.mp he]
      rfl
    · rw [List.mem_singleton.mp he]
      rfl
  · cases h

/-- Before their sends the blocks of a routing do nothing that comes of a failure. -/
theorem ofFailure_before_blocksFrom (place : Nat) (reports : List TypologyResult) :
    ∀ b ∈ blocksFrom routes c counts place reports, ∀ e ∈ b.before, e.ofFailure = false := by
  intro b hb
  obtain ⟨_, r, -, h⟩ := block?_of_mem_blocksFrom routes c counts hb
  exact ofFailure_before_block? routes c counts h

/-- Routing counts the sends that fail. -/
theorem count_failures_route (reports : List TypologyResult) :
    Effect.count (route routes c counts reports).effects .dispatchFailures =
      failures routes.deliver 0 (Effect.sends (route routes c counts reports).effects) := by
  rw [route_eq, count_failures_perform _ _ (ofFailure_before_blocksFrom routes c counts 0 reports),
    sends_perform _ _ _ (proper_blocksFrom routes c counts 0 reports)]

/-- Apart from failures, and without times, what routing does depends on the definitions and the
interdiction channel, whichever sends fail. -/
theorem undisturbed_route_timeless {routes routes' : Routes}
    (hdefine : routes.define = routes'.define)
    (hchannel : routes.interdictionChannel = routes'.interdictionChannel)
    (reports : List TypologyResult) :
    (Effect.undisturbed (route routes c counts reports).effects).map Effect.timeless =
      (Effect.undisturbed (route routes' c counts reports).effects).map Effect.timeless := by
  have hview (blocks : List Block) :
      (blocks.flatMap fun b ↦ b.before ++ b.sends.map Effect.sent).map Effect.timeless =
        (blocks.map Block.timeless).flatMap fun b ↦
          b.before.map Effect.timeless ++ b.sends.map Effect.sent := by
    rw [List.map_flatMap, List.flatMap_map]
    congr 1
    funext b
    rw [List.map_append, Block.sends_timeless, List.map_map, List.map_map]
    rfl
  rw [route_eq, route_eq,
    undisturbed_perform _ _ (ofFailure_before_blocksFrom routes c counts 0 reports),
    undisturbed_perform _ _ (ofFailure_before_blocksFrom routes' c counts 0 reports), hview, hview,
    map_timeless_blocksFrom hdefine hchannel]

end

end RiskTypology
