import RiskTypology.Proofs.Merged
import RiskTypology.Proofs.Run.Isolation

/-!
# Maps that are listed otherwise

Runs of events that are equal but for the way their maps list the typologies. As long as the merged
views of the maps are the same, they count and store the same, end alike and hand out the same
reports, turn by turn; only the order in which typologies leave may change, and the maps the
payloads carry.
-/

namespace RiskTypology

/-- The send without the map it carries and without the time the evaluation of its payload took. -/
def Send.unmapped (s : Send) : Send :=
  { s with payload := { s.payload.timeless with networkMap := { messages := [] } } }

/-- Events that differ at most in how their maps list the typologies. -/
structure Event.SameMerged (e e' : Event) : Prop where
  merged : e.networkMap.merged = e'.networkMap.merged
  ruleResult : e.ruleResult = e'.ruleResult
  transaction : e.transaction = e'.transaction
  metadata : e.metadata = e'.metadata

/-- The map plays no part in where a result is gathered. -/
theorem Event.SameMerged.cacheKey_eq {e e' : Event} (h : e.SameMerged e') :
    e.cacheKey = e'.cacheKey := by
  rw [cacheKey, cacheKey, h.transaction]

/-- Passes that differ at most in the maps they send, in the order of their sends, in the failures
of these and in how long evaluations took. -/
structure Pass.SameButMaps (p p' : Pass) : Prop where
  outcome : p.outcome.withoutPayload = p'.outcome.withoutPayload
  store : p.store = p'.store
  sends : ((Effect.sends p.effects).map Send.unmapped).Perm
    ((Effect.sends p'.effects).map Send.unmapped)

section

variable (routes : Routes) (c : Context) (counts : RuleCounts)

/-- Apart from times and the map, a report leaves in the same way whatever map the context has. -/
theorem map_unmapped_departures (map : NetworkMap) (duration : UInt64) (r : TypologyResult) :
    (departures routes { c with networkMap := map } counts duration r).map Send.unmapped =
      (departures routes c counts 0 r).map Send.unmapped := by
  unfold departures
  split
  · rw [sends_scoredBlock, sends_scoredBlock, List.map_append, List.map_append]
    split <;> rfl
  · rfl

variable {c} in
/-- Routing sends the same reports, in some order, if the maps have the same merged view. -/
theorem unmapped_route_perm {map : NetworkMap} (h : c.networkMap.merged = map.merged)
    {reports reports' : List TypologyResult} (hp : reports.Perm reports') :
    ((Effect.sends (route routes c counts reports).effects).map Send.unmapped).Perm
      ((Effect.sends (route routes { c with networkMap := map } counts reports').effects).map
        Send.unmapped) := by
  rw [map_sends_route routes c counts (map_unmapped_departures routes c counts c.networkMap),
    map_sends_route routes _ counts (map_unmapped_departures routes c counts map),
    isReady_eq_of_merged_eq h]
  exact (hp.filter _).flatMap_right _

end

namespace Pass

section

variable {p p' p'' : Pass}

/-- What is the same but for failures is the same but for maps. -/
theorem sameButMaps_of_sameButFailures (h : p.SameButFailures p') : p.SameButMaps p' where
  outcome := h.withoutPayload_eq
  store := h.store
  sends := .of_eq (h.map_sends_eq fun _ ↦ rfl)

/-- Being the same but for maps is transitive. -/
theorem SameButMaps.trans (h : p.SameButMaps p') (h' : p'.SameButMaps p'') : p.SameButMaps p'' where
  outcome := h.outcome.trans h'.outcome
  store := h.store.trans h'.store
  sends := h.sends.trans h'.sends

end

section

variable {event event' : Event} (h : event.SameMerged event')

include h

/-- A finished pass is the same but for maps if its map is listed otherwise. -/
theorem finish_sameButMaps (services : Services) (store : Store) (results : List RuleResult) :
    (finish services store event results).SameButMaps (finish services store event' results) := by
  have hcounts : counts event results = counts event' results := by
    rw [counts, counts, ruleCount_eq_of_merged_eq h.merged]
  have hending : ending services store event results = ending services store event' results := by
    rw [ending_eq, ending_eq, hcounts, h.cacheKey_eq]
  have hreports := aggregate_perm_of_merged_eq h.merged results event.ruleResult
  rw [h.ruleResult] at hreports
  constructor
  · rw [finish_eq, finish_eq, hcounts, hending, h.cacheKey_eq, h.ruleResult, hreports.length_eq]
    rfl
  · rw [finish_eq, finish_eq, hending]
  · rw [sends_finish, sends_finish, routed, routed, hcounts, h.ruleResult, h.transaction,
      h.metadata]
    exact unmapped_route_perm _ _ h.merged hreports

/-- A pass is the same but for maps if its map is listed otherwise. -/
theorem run_sameButMaps (services : Services) (store : Store) :
    (run services store event).SameButMaps (run services store event') := by
  rw [run_eq, run_eq, h.cacheKey_eq, h.ruleResult]
  cases hsave : store.save services.store services.now event'.cacheKey event'.ruleResult with
  | mk after answer =>
    obtain e | _ | gathered := answer
    · exact ⟨rfl, rfl, .refl _⟩
    · exact ⟨rfl, rfl, .refl _⟩
    · exact finish_sameButMaps h services after gathered

end

end Pass

/-- Runs of events that are equal but for how their maps list the typologies, with services that
differ at most in which sends fail and in how long evaluations take, do the same turn by turn as
long as the merged views are the same: they come to the same outcomes, leave the same stores and
hand out the same reports, each as often. -/
theorem turns_of_merged_maps (store : Store) {inputs inputs' : List (Services × Event)}
    (h : List.Forall₂ (fun i i' ↦ i.1.SameButSends i'.1 ∧ i.2.SameMerged i'.2) inputs inputs') :
    List.Forall₂ (fun t t' ↦ t.pass.SameButMaps t'.pass) (turns store inputs)
      (turns store inputs') := by
  refine forall₂_turns Eq Pass.SameButMaps ?_ rfl h
  rintro ⟨services, event⟩ ⟨services', event'⟩ store store' ⟨hs, he⟩ rfl
  have hp := (Pass.run_sameButMaps he services store).trans
    (Pass.sameButMaps_of_sameButFailures (Pass.run_sameButFailures hs store event'))
  exact ⟨hp, hp.store⟩

private def inOneListing : NetworkMap :=
  .ofTypologies [⟨"T", "1", [⟨"A", "1"⟩, ⟨"B", "1"⟩]⟩, ⟨"U", "1", [⟨"A", "1"⟩]⟩]

private def inManyListings : NetworkMap :=
  { active := true, cfg := "2", messages := [
      ⟨"m1", "1", "pacs.008", [
        ⟨"c1", "1", [⟨"U", "1", [⟨"A", "1"⟩, ⟨"A", "1"⟩]⟩, ⟨"T", "1", [⟨"B", "1"⟩]⟩]⟩,
        ⟨"c2", "1", [⟨"T", "1", [⟨"A", "1"⟩]⟩]⟩]⟩,
      ⟨"m2", "1", "pacs.002", [⟨"c1", "1", [⟨"U", "1", [⟨"A", "1"⟩]⟩]⟩]⟩] }

private def bothOn (map : NetworkMap) : List (Services × Event) :=
  [(Services.plain, .ofRule map "m" "B" "1"), (Services.plain, .ofRule map "m" "A" "1")]

/-- Two typologies, each in one listing and then over several messages, channels and listings: both
leave with the last event in either case, though in another order. -/
theorem listed_in_parts :
    List.Forall₂ (fun i i' ↦ i.1.SameButSends i'.1 ∧ i.2.SameMerged i'.2) (bothOn inOneListing)
        (bothOn inManyListings) ∧
      List.Forall₂ (fun t t' ↦ t.pass.SameButMaps t'.pass) (turns {} (bothOn inOneListing))
        (turns {} (bothOn inManyListings)) ∧
      (turns {} (bothOn inOneListing)).map (·.pass.handedOver) =
        [[], [("T", "1"), ("U", "1")]] ∧
      (turns {} (bothOn inManyListings)).map (·.pass.handedOver) =
        [[], [("U", "1"), ("T", "1")]] := by
  have hm : inOneListing.merged = inManyListings.merged := by decide
  have hs : Services.plain.SameButSends Services.plain := ⟨rfl, rfl, rfl, rfl⟩
  have h : List.Forall₂ (fun i i' ↦ i.1.SameButSends i'.1 ∧ i.2.SameMerged i'.2)
      (bothOn inOneListing) (bothOn inManyListings) :=
    .cons ⟨hs, hm, rfl, rfl, rfl⟩ (.cons ⟨hs, hm, rfl, rfl, rfl⟩ .nil)
  exact ⟨h, turns_of_merged_maps {} h, by decide, by decide⟩

end RiskTypology
