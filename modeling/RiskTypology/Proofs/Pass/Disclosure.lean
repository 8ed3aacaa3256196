import RiskTypology.Proofs.Pass.HandOver

/-!
# Disclosure

What payloads disclose of a transaction. On the interdiction channel they carry it in full. On the
default channel a scored report carries it cut down while rules are outstanding, and in full
afterwards; a report without a definition carries it in full in every case. So no more is disclosed
than is due exactly if nothing is outstanding or every typology that leaves has a definition.
-/

namespace RiskTypology

/-- Whether the definition of the typology a send reports on is to be had. -/
def Routes.definesFor (routes : Routes) (s : Send) : Bool :=
  routes.defines s.payload.typologyResult.id s.payload.typologyResult.cfg

/-- What sends disclose of the transaction of a context. -/
structure Disclosure (routes : Routes) (c : Context) (counts : RuleCounts) (sends : List Send) :
    Prop where
  /-- A named channel gets the transaction in full. -/
  diverted : ∀ s ∈ sends, s.channels ≠ [] → s.payload.transaction = c.transaction
  /-- When nothing is outstanding the default channel gets it in full too. -/
  complete : counts.total ≤ counts.stored →
    ∀ s ∈ sends, s.channels = [] → s.payload.transaction = c.transaction
  /-- While rules are outstanding a scored report brings it cut down. -/
  scored : counts.stored < counts.total → ∀ s ∈ sends, s.channels = [] →
    routes.definesFor s = true → s.payload.transaction = c.transaction.minimal
  /-- A report without a definition brings it in full. -/
  unscored : ∀ s ∈ sends, s.channels = [] →
    routes.definesFor s = false → s.payload.transaction = c.transaction

/-- Sends that disclose no more of a transaction than is due: in full it leaves on a named channel,
and on the default channel when nothing is outstanding, and cut down on the default channel before.
-/
structure Sparing (c : Context) (counts : RuleCounts) (sends : List Send) : Prop where
  diverted : ∀ s ∈ sends, s.channels ≠ [] → s.payload.transaction = c.transaction
  complete : counts.total ≤ counts.stored →
    ∀ s ∈ sends, s.channels = [] → s.payload.transaction = c.transaction
  outstanding : counts.stored < counts.total →
    ∀ s ∈ sends, s.channels = [] → s.payload.transaction = c.transaction.minimal

section

variable {routes : Routes} {c : Context} {counts : RuleCounts}

/-- Only a scored report on the default channel leaves with anything but the full transaction. -/
theorem Departure.transaction_eq {r : TypologyResult} {s : Send}
    (h : Departure routes c counts r s) :
    s.payload.transaction =
      if s.channels = [] ∧ routes.definesFor s = true then c.outgoing counts
      else c.transaction := by
  cases h with
  | scored duration hd => exact (if_pos ⟨rfl, Routes.defines_of_define hd⟩).symm
  | interdicting => exact (if_neg fun hn ↦ List.cons_ne_nil _ _ hn.1).symm
  | unscored duration hd => exact (if_neg fun hn ↦ Bool.eq_false_iff.mp hd hn.2).symm

variable {sends : List Send}

private theorem disclosure_of_departures
    (h : ∀ s ∈ sends, ∃ r, Departure routes c counts r s) :
    Disclosure routes c counts sends := by
  have ht : ∀ s ∈ sends, s.payload.transaction =
      if s.channels = [] ∧ routes.definesFor s = true then c.outgoing counts
      else c.transaction := by
    intro s hs
    obtain ⟨r, hr⟩ := h s hs
    exact hr.transaction_eq
  refine ⟨?_, ?_, ?_, ?_⟩
  · intro s hs hd
    rw [ht s hs, if_neg fun hn ↦ hd hn.1]
  · intro hc s hs hd
    have hout : c.outgoing counts = c.transaction := if_pos (decide_eq_true hc)
    rw [ht s hs, hout, ite_self]
  · intro hc s hs hd hk
    have hout : c.outgoing counts = c.transaction.minimal := by
      rw [Context.outgoing, if_neg]
      simpa [RuleCounts.isComplete] using hc
    rw [ht s hs, if_pos ⟨hd, hk⟩, hout]
  · intro s hs hd hk
    rw [ht s hs, if_neg fun hn ↦ Bool.eq_false_iff.mp hk hn.2]

/-- Sends disclose no more than is due exactly if nothing is outstanding, there is nothing to cut
away, or every typology that leaves on the default channel has a definition. -/
theorem Disclosure.sparing_iff (h : Disclosure routes c counts sends) :
    Sparing c counts sends ↔
      counts.total ≤ counts.stored ∨ c.transaction.isMinimal = true ∨
        ∀ s ∈ sends, s.channels = [] → routes.definesFor s = true := by
  rw [Transaction.isMinimal_iff]
  constructor
  · intro hsparing
    by_cases hc : counts.total ≤ counts.stored
    · exact .inl hc
    by_cases hall : ∀ s ∈ sends, s.channels = [] → routes.definesFor s = true
    · exact .inr (.inr hall)
    -- A report without a definition carries both the full and the minimal transaction.
    push Not at hall
    obtain ⟨s, hs, hd, hk⟩ := hall
    have hmin := hsparing.outstanding (Nat.lt_of_not_le hc) s hs hd
    rw [h.unscored s hs hd (Bool.eq_false_iff.mpr hk)] at hmin
    exact .inr (.inl hmin)
  · intro hcases
    refine ⟨h.diverted, h.complete, ?_⟩
    intro hc s hs hd
    obtain hle | hmin | hall := hcases
    · exact absurd hle (Nat.not_le_of_lt hc)
    · cases hk : routes.definesFor s with
      | true => exact h.scored hc s hs hd hk
      | false => rw [h.unscored s hs hd hk, ← hmin]
    · exact h.scored hc s hs hd (hall s hs hd)

/-- What routing sends discloses what it holds. -/
theorem disclosure_route (routes : Routes) (c : Context) (counts : RuleCounts)
    (reports : List TypologyResult) :
    Disclosure routes c counts (Effect.sends (route routes c counts reports).effects) := by
  apply disclosure_of_departures
  intro s hs
  obtain ⟨r, -, -, hr⟩ := departure_of_mem_route hs
  exact ⟨r, hr⟩

end

namespace Pass

/-- What a pass sends discloses what it holds. -/
theorem disclosure_run {services : Services} {store : Store} {event : Event} {counts : RuleCounts}
    (hc : (run services store event).outcome.counts = some counts) :
    Disclosure services.routes event.context counts
      (Effect.sends (run services store event).effects) := by
  apply disclosure_of_departures
  intro s hs
  obtain ⟨hcounts, key, h⟩ := departure_of_mem_run hs
  rw [hc] at hcounts
  obtain rfl := Option.some.inj hcounts
  exact ⟨_, h⟩

/-- What routing and passes disclose, whatever fails. They disclose no more than is due exactly if
nothing is outstanding, there is nothing to cut away, or every typology that leaves on the default
channel has a definition. An aborted pass discloses nothing. -/
theorem sparing_iff_defined (routes : Routes) (c : Context) (counts : RuleCounts)
    (reports : List TypologyResult) (services : Services) (store : Store) (event : Event) :
    let routed := Effect.sends (route routes c counts reports).effects
    let passed := Effect.sends (run services store event).effects
    (Disclosure routes c counts routed ∧
      (Sparing c counts routed ↔
        counts.total ≤ counts.stored ∨ c.transaction.isMinimal = true ∨
          ∀ s ∈ routed, s.channels = [] → routes.definesFor s = true)) ∧
    ((run services store event).outcome.counts = none → passed = []) ∧
    ∀ counts', (run services store event).outcome.counts = some counts' →
      Disclosure services.routes event.context counts' passed ∧
      (Sparing event.context counts' passed ↔
        counts'.total ≤ counts'.stored ∨ event.transaction.isMinimal = true ∨
          ∀ s ∈ passed, s.channels = [] → services.routes.definesFor s = true) := by
  intro routed passed
  have hroute : Disclosure routes c counts routed := disclosure_route routes c counts reports
  refine ⟨⟨hroute, hroute.sparing_iff⟩, ?_, ?_⟩
  · intro hn
    apply sends_of_aborted
    rw [Outcome.isAborted, hn, Option.isNone_none]
  · intro counts' hc
    have hrun : Disclosure services.routes event.context counts' passed := disclosure_run hc
    exact ⟨hrun, hrun.sparing_iff⟩

private def disjointRules : NetworkMap :=
  .ofTypologies [⟨"T", "1", [⟨"A", "1"⟩]⟩, ⟨"U", "1", [⟨"B", "1"⟩]⟩]

private def detailed : Event :=
  { Event.ofRule disjointRules "m" "A" "1" with
    transaction :=
      ⟨"pacs.002.001.12", ⟨⟨"m", [("CreDtTm", .str "2024-01-01T00:00:00Z")]⟩, []⟩, []⟩ }

private def definingServices : Services :=
  { Services.plain with
    routes := ⟨fun id cfg ↦ .ok (some
        { id := id, cfg := cfg, rules := [], expression := .literal 7.0, workflow := {} }),
      "cms", fun _ _ ↦ none, fun _ ↦ 0⟩ }

/-- One of two rules is outstanding, and the typology that leaves has a definition: the default
channel gets the minimal transaction. -/
theorem minimal_with_definition :
    (run definingServices {} detailed).outcome.counts = some ⟨1, 2⟩ ∧
      (Effect.sends (run definingServices {} detailed).effects).length = 1 ∧
      Sparing detailed.context ⟨1, 2⟩
        (Effect.sends (run definingServices {} detailed).effects) := by
  have hc : (run definingServices {} detailed).outcome.counts = some ⟨1, 2⟩ := by decide
  obtain ⟨-, -, hpass⟩ := sparing_iff_defined definingServices.routes detailed.context ⟨1, 2⟩ []
    definingServices {} detailed
  obtain ⟨-, hiff⟩ := hpass ⟨1, 2⟩ hc
  exact ⟨hc, by decide, hiff.mpr (.inr (.inr (by decide)))⟩

/-- One of two rules is outstanding, and the typology that leaves has no definition: the default
channel gets more than the minimal transaction. -/
theorem full_without_definition :
    (run Services.plain {} detailed).outcome.counts = some ⟨1, 2⟩ ∧
      ¬ Sparing detailed.context ⟨1, 2⟩
        (Effect.sends (run Services.plain {} detailed).effects) := by
  refine ⟨by decide, ?_⟩
  intro h
  have hm : ∀ s ∈ Effect.sends (run Services.plain {} detailed).effects, s.channels = [] →
      s.payload.transaction.isMinimal = true := by
    intro s hs hd
    rw [h.outstanding (by decide) s hs hd]
    rfl
  exact absurd hm (by decide)

end Pass
end RiskTypology
