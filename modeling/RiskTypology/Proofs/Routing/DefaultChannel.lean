import RiskTypology.Routing

/-!
# The default channel

What goes to the default channel. Whether a send fails changes nothing about what is sent: the
sends of a routing are those of its blocks, in order. Each block hands exactly one payload to the
default channel, and there is a block exactly for each report that is ready.
-/

namespace RiskTypology

/-- The payloads that are handed to the default channel, in order. -/
def Effect.defaultPayloads (effects : List Effect) : List Payload :=
  (Effect.sends effects).filterMap fun s ↦ if s.channels.isEmpty then some s.payload else none

private theorem sends_sendEffects (deliver : Nat → Send → Option String) (number : Nat)
    (s : Send) : Effect.sends (sendEffects deliver number s) = [s] := by
  unfold sendEffects
  cases deliver number s <;> rfl

/-- A delivery sends what it is given, whatever fails. -/
theorem sends_deliverAll (deliver : Nat → Send → Option String) (number : Nat)
    (ss : List Send) : Effect.sends (deliverAll deliver number ss) = ss := by
  induction ss generalizing number with
  | nil => rfl
  | cons s rest ih =>
    rw [deliverAll, Effect.sends_append, sends_sendEffects, ih, List.singleton_append]

/-- What a block does before its sends sends nothing, and only its payload for the default channel
goes there. -/
structure Block.Proper (b : Block) : Prop where
  quiet : Effect.sends b.before = []
  diverted : ∀ s ∈ b.interdiction, s.channels ≠ []

/-- Blocks send what they hold, in order, whatever fails. -/
theorem sends_perform (deliver : Nat → Send → Option String) (number : Nat)
    (blocks : List Block) (h : ∀ b ∈ blocks, b.Proper) :
    Effect.sends (perform deliver number blocks) = blocks.flatMap Block.sends := by
  induction blocks generalizing number with
  | nil => rfl
  | cons b rest ih =>
    rw [perform, Effect.sends_append, Effect.sends_append, (h b (by simp)).quiet,
      sends_deliverAll, ih _ (fun b hb ↦ h b (by simp [hb])), List.nil_append, List.flatMap_cons]

/-- Each block hands its payload to the default channel, once. -/
theorem defaultPayloads_perform (deliver : Nat → Send → Option String) (number : Nat)
    (blocks : List Block) (h : ∀ b ∈ blocks, b.Proper) :
    Effect.defaultPayloads (perform deliver number blocks) = blocks.map (·.default) := by
  rw [Effect.defaultPayloads, sends_perform deliver number blocks h]
  induction blocks with
  | nil => rfl
  | cons b rest ih =>
    have hb := (h b (by simp)).diverted
    have ih := ih fun b hb ↦ h b (by simp [hb])
    rw [List.flatMap_cons, List.filterMap_append, ih, List.map_cons, Block.sends]
    cases hi : b.interdiction with
    | none => simp
    | some s => simp [hb s hi]

section

variable (routes : Routes) (c : Context) (counts : RuleCounts)

/-- Scoring tells of what is wrong with the definition and counts the verdict. -/
theorem mem_scoringEffects {e : Evaluation} {t : Thresholds} {f : Effect}
    (h : f ∈ scoringEffects e t) :
    f = .told (.notNumeric e.unresolved) ∨ f = .told .alertThresholdMissing ∨
      ∃ m ≠ .dispatchFailures, f = .counted m := by
  simp only [scoringEffects, List.mem_append] at h
  obtain ((h | h) | h) | h := h
  · split at h
    · cases h
    · exact .inl (List.mem_singleton.mp h)
  · split at h
    · cases h
    · exact .inr (.inl (List.mem_singleton.mp h))
  · obtain ⟨m, hm, rfl⟩ := List.mem_map.mp h
    refine .inr (.inr ⟨m, ?_, rfl⟩)
    rintro rfl
    cases hv : Verdict.ofScore e.value t <;> simp [hv, Verdict.metrics] at hm
  · exact .inr (.inr ⟨.evaluations, by decide, List.mem_singleton.mp h⟩)

private theorem sends_scoringEffects (e : Evaluation) (t : Thresholds) :
    Effect.sends (scoringEffects e t) = [] := by
  rw [Effect.sends, List.filterMap_eq_nil_iff]
  intro f hf
  obtain rfl | rfl | ⟨m, -, rfl⟩ := mem_scoringEffects hf <;> rfl

private theorem proper_scoredBlock (r : TypologyResult) (d : Definition) (duration : UInt64) :
    (scoredBlock routes c counts r d duration).Proper where
  quiet := sends_scoringEffects _ _
  diverted := by
    intro s hs
    simp only [scoredBlock] at hs
    split at hs
    · cases hs
      exact List.cons_ne_nil _ _
    · cases hs

private theorem key_scoredBlock (r : TypologyResult) (d : Definition) (duration : UInt64) :
    (scoredBlock routes c counts r d duration).default.typologyResult.key = r.key := by
  simp only [scoredBlock]
  split <;> rfl

/-- There is a block for a report exactly when it is ready. -/
theorem isSome_block? (duration : UInt64) (r : TypologyResult) :
    (block? routes c counts duration r).isSome = isReady c.networkMap r := by
  cases hr : isReady c.networkMap r with
  | false => rw [block?, hr, if_neg Bool.false_ne_true, Option.isSome_none]
  | true =>
    simp only [block?, hr, if_true]
    split <;> rfl

/-- The block of a report is scored if the report has a definition and unscored otherwise. -/
theorem block?_cases {duration : UInt64} {r : TypologyResult} {b : Block}
    (h : block? routes c counts duration r = some b) :
    (∃ d, routes.define r.id r.cfg = .ok (some d) ∧
        b = scoredBlock routes c counts r d duration) ∨
      ((∀ d, routes.define r.id r.cfg ≠ .ok (some d)) ∧
        ∃ notice, b = unscoredBlock c r duration notice) := by
  simp only [block?] at h
  split at h
  · split at h <;> cases h
    · next d hd => exact .inl ⟨d, hd, rfl⟩
    · next hd => exact .inr ⟨by simp [hd], _, rfl⟩
    · next e hd => exact .inr ⟨by simp [hd], _, rfl⟩
  · cases h

/-- The block of a report is proper and the report's own. -/
theorem block?_spec {duration : UInt64} {r : TypologyResult} {b : Block}
    (h : block? routes c counts duration r = some b) :
    b.Proper ∧ b.default.typologyResult.key = r.key := by
  obtain ⟨d, -, rfl⟩ | ⟨-, notice, rfl⟩ := block?_cases routes c counts h
  · exact ⟨proper_scoredBlock routes c counts r d duration,
      key_scoredBlock routes c counts r d duration⟩
  · exact ⟨⟨rfl, by simp [unscoredBlock]⟩, rfl⟩

/-- Every block of a routing is the block of one of its reports. -/
theorem block?_of_mem_blocksAsking {lookUps : LookUps} {place : Nat}
    {reports : List TypologyResult} {b : Block}
    (h : b ∈ blocksAsking routes lookUps c counts place reports) :
    ∃ asked duration, ∃ r ∈ reports,
      block? (routes.asking lookUps asked) c counts duration r = some b := by
  induction reports generalizing place with
  | nil => cases h
  | cons r rest ih =>
    rw [blocksAsking, List.mem_append, Option.mem_toList] at h
    cases h with
    | inl h => exact ⟨place, _, r, List.mem_cons_self, h⟩
    | inr h =>
      obtain ⟨asked, duration, r', hr', h⟩ := ih h
      exact ⟨asked, duration, r', List.mem_cons_of_mem r hr', h⟩

/-- Every block of a routing is the block of one of its reports, by the one definition each has. -/
theorem block?_of_mem_blocksFrom {place : Nat} {reports : List TypologyResult} {b : Block}
    (h : b ∈ blocksFrom routes c counts place reports) :
    ∃ duration, ∃ r ∈ reports, block? routes c counts duration r = some b := by
  obtain ⟨_, duration, r, hr, h⟩ := block?_of_mem_blocksAsking routes c counts h
  exact ⟨duration, r, hr, h⟩

/-- Every block of a routing is proper, whatever each look-up says. -/
theorem proper_blocksAsking (lookUps : LookUps) (place : Nat) (reports : List TypologyResult) :
    ∀ b ∈ blocksAsking routes lookUps c counts place reports, b.Proper := by
  intro b hb
  obtain ⟨_, _, r, -, h⟩ := block?_of_mem_blocksAsking routes c counts hb
  exact (block?_spec _ c counts h).1

/-- Every block of a routing is proper. -/
theorem proper_blocksFrom (place : Nat) (reports : List TypologyResult) :
    ∀ b ∈ blocksFrom routes c counts place reports, b.Proper :=
  proper_blocksAsking routes c counts _ place reports

/-- What shows of the blocks of a routing, if it is the same for every block of a report, is what
shows of the reports that are ready, in their order. -/
theorem map_blocksFrom {β : Type} {view : Block → β} {shown : TypologyResult → β}
    (h : ∀ duration r b, block? routes c counts duration r = some b → view b = shown r)
    (place : Nat) (reports : List TypologyResult) :
    (blocksFrom routes c counts place reports).map view =
      (reports.filter (isReady c.networkMap)).map shown := by
  induction reports generalizing place with
  | nil => rfl
  | cons r rest ih =>
    have hr := isSome_block? routes c counts (routes.elapsed place) r
    rw [blocksFrom_cons, List.map_append, ih]
    cases hb : block? routes c counts (routes.elapsed place) r with
    | none =>
      rw [hb, Option.isSome_none] at hr
      rw [List.filter_cons_of_neg (by rw [← hr]; exact Bool.false_ne_true)]
      rfl
    | some b =>
      rw [hb, Option.isSome_some] at hr
      rw [List.filter_cons_of_pos hr.symm, List.map_cons, ← h _ r b hb]
      rfl

/-- The blocks of a routing are those of the reports that are ready, in their order. -/
theorem map_key_blocksFrom (place : Nat) (reports : List TypologyResult) :
    (blocksFrom routes c counts place reports).map (·.default.typologyResult.key) =
      (reports.filter (isReady c.networkMap)).map (·.key) :=
  map_blocksFrom routes c counts (fun _ _ _ h ↦ (block?_spec routes c counts h).2) place reports

/-- Routing hands one payload to the default channel for each report that is ready, in order. -/
theorem map_key_defaultPayloads_route (reports : List TypologyResult) :
    (Effect.defaultPayloads (route routes c counts reports).effects).map (·.typologyResult.key) =
      (reports.filter (isReady c.networkMap)).map (·.key) := by
  rw [route_eq, defaultPayloads_perform _ _ _ (proper_blocksFrom routes c counts 0 reports),
    List.map_map]
  exact map_key_blocksFrom routes c counts 0 reports

end

end RiskTypology
