import RiskTypology.Aggregation
import RiskTypology.Proofs.Distinct

/-!
# What a map waits for

The rule ids a map and its typologies wait for, and the typologies that wait for a rule, as sets.
-/

namespace RiskTypology

namespace RuleResult

/-- Every gathered id is among the distinct ones. -/
@[simp] theorem mem_distinctIds {results : List RuleResult} {id : String} :
    id ∈ distinctIds results ↔ ∃ r ∈ results, r.id = id := by
  rw [distinctIds, List.mem_eraseDups, List.mem_map]

/-- The distinct ids do not repeat. -/
theorem nodup_distinctIds (results : List RuleResult) : (distinctIds results).Nodup :=
  Distinct.nodup_eraseDups _

/-- Whether there is a result for every rule id. -/
def haveAll (results : List RuleResult) (ids : List String) : Bool :=
  ids.all fun id ↦ results.any (·.id == id)

/-- There is a result for every rule id exactly when each id is the id of some result. -/
theorem haveAll_iff {results : List RuleResult} {ids : List String} :
    haveAll results ids = true ↔ ∀ id ∈ ids, ∃ r ∈ results, r.id = id := by
  simp [haveAll]

/-- Having all of some rule ids is having each among the distinct ones. -/
theorem haveAll_iff_subset {results : List RuleResult} {ids : List String} :
    haveAll results ids = true ↔ ids ⊆ distinctIds results := by
  rw [haveAll_iff]
  constructor
  · intro h id hid
    exact mem_distinctIds.mpr (h id hid)
  · intro h id hid
    exact mem_distinctIds.mp (h hid)

end RuleResult

namespace NetworkMap

variable (map : NetworkMap)

/-- The map lists a rule under some typology. -/
def Lists (id cfg : String) : Prop :=
  ∃ t ∈ map.typologies, ∃ rule ∈ t.rules, rule.id = id ∧ rule.cfg = cfg

/-- A typology waits for a rule, in its version, by one of its listings. -/
def WaitsFor (typology : String × String) (id cfg : String) : Prop :=
  ∃ t ∈ map.listings typology.1 typology.2, ∃ rule ∈ t.rules, rule.id = id ∧ rule.cfg = cfg

/-- The map lists no rule in two versions. -/
def SingleVersion : Prop :=
  ∀ t ∈ map.typologies, ∀ rule ∈ t.rules, ∀ u ∈ map.typologies, ∀ other ∈ u.rules,
    rule.id = other.id → rule.cfg = other.cfg

/-- A typology waits for every version in which the map lists one of its rule ids. -/
def WaitsForEveryVersion (typology : String × String) : Prop :=
  ∀ t ∈ map.typologies, ∀ rule ∈ t.rules,
    rule.id ∈ map.requiredRuleIds typology.1 typology.2 → map.WaitsFor typology rule.id rule.cfg

/-- Whether a rule is listed can be tested. -/
instance (id cfg : String) : Decidable (map.Lists id cfg) :=
  inferInstanceAs (Decidable (∃ t ∈ map.typologies, ∃ rule ∈ t.rules, _))

/-- Whether a typology waits for a rule in a version can be tested. -/
instance (typology : String × String) (id cfg : String) :
    Decidable (map.WaitsFor typology id cfg) :=
  inferInstanceAs (Decidable (∃ t ∈ map.listings typology.1 typology.2, ∃ rule ∈ t.rules, _))

/-- Whether rules are listed in one version each can be tested. -/
instance : Decidable map.SingleVersion :=
  inferInstanceAs (Decidable (∀ t ∈ map.typologies, ∀ rule ∈ t.rules, _))

/-- Whether a typology waits for every version of its rules can be tested. -/
instance (typology : String × String) : Decidable (map.WaitsForEveryVersion typology) :=
  inferInstanceAs (Decidable (∀ t ∈ map.typologies, ∀ rule ∈ t.rules, _))

/-- The listings of a typology are those of its id and version. -/
theorem mem_listings {id cfg : String} {t : Typology} :
    t ∈ map.listings id cfg ↔ t ∈ map.typologies ∧ t.id = id ∧ t.cfg = cfg := by
  simp [listings, List.mem_filter]

/-- The ids some listings wait for are those of their rules. -/
theorem mem_ruleIds {listings : List Typology} {ruleId : String} :
    ruleId ∈ ruleIds listings ↔ ∃ t ∈ listings, ∃ rule ∈ t.rules, rule.id = ruleId := by
  simp [ruleIds, List.mem_flatMap]

/-- The ids some listings wait for are counted without their repeats. -/
theorem length_ruleIds (listings : List Typology) :
    (ruleIds listings).length = ((listings.flatMap (·.rules)).map (·.id)).toFinset.card := by
  rw [ruleIds, Distinct.length_eraseDups, List.map_flatMap]

/-- There is a result for every id some listings wait for exactly when there is one for each of
their rules. -/
theorem haveAll_ruleIds {results : List RuleResult} {listings : List Typology} :
    RuleResult.haveAll results (ruleIds listings) = true ↔
      ∀ t ∈ listings, ∀ rule ∈ t.rules, ∃ r ∈ results, r.id = rule.id := by
  rw [RuleResult.haveAll_iff]
  constructor
  · intro h t ht rule hr
    exact h rule.id (mem_ruleIds.mpr ⟨t, ht, rule, hr, rfl⟩)
  · intro h ruleId hid
    obtain ⟨t, ht, rule, hr, rfl⟩ := mem_ruleIds.mp hid
    exact h t ht rule hr

/-- The ids a typology waits for are those of the rules of its listings. -/
theorem mem_requiredRuleIds {id cfg ruleId : String} :
    ruleId ∈ map.requiredRuleIds id cfg ↔
      ∃ t ∈ map.listings id cfg, ∃ rule ∈ t.rules, rule.id = ruleId := mem_ruleIds

/-- The ids a map waits for are those of its rules. -/
theorem mem_allRuleIds {ruleId : String} :
    ruleId ∈ map.allRuleIds ↔ ∃ t ∈ map.typologies, ∃ rule ∈ t.rules, rule.id = ruleId :=
  mem_ruleIds

/-- The ids a typology waits for do not repeat. -/
theorem nodup_requiredRuleIds (id cfg : String) : (map.requiredRuleIds id cfg).Nodup :=
  Distinct.nodup_eraseDups _

/-- The ids a map waits for do not repeat. -/
theorem nodup_allRuleIds : map.allRuleIds.Nodup := Distinct.nodup_eraseDups _

/-- What a typology waits for, the map waits for. -/
theorem requiredRuleIds_subset (id cfg : String) :
    map.requiredRuleIds id cfg ⊆ map.allRuleIds := by
  intro ruleId h
  obtain ⟨t, ht, rule, hr, hid⟩ := map.mem_requiredRuleIds.mp h
  exact map.mem_allRuleIds.mpr ⟨t, (map.mem_listings.mp ht).1, rule, hr, hid⟩

/-- A listing waits for the rule of a result exactly when it has that rule in that version. -/
theorem requires_iff {t : Typology} {new : RuleResult} :
    t.requires new = true ↔ ∃ rule ∈ t.rules, rule.id = new.id ∧ rule.cfg = new.cfg := by
  simp [Typology.requires]

/-- A result touches the typologies that wait for it. -/
theorem mem_touchedBy {new : RuleResult} {key : String × String} :
    key ∈ touchedBy map new ↔ map.WaitsFor key new.id new.cfg := by
  rw [touchedBy, List.mem_eraseDups, List.mem_map]
  constructor
  · rintro ⟨t, ht, rfl⟩
    obtain ⟨hm, hr⟩ := List.mem_filter.mp ht
    exact ⟨t, map.mem_listings.mpr ⟨hm, rfl, rfl⟩, requires_iff.mp hr⟩
  · rintro ⟨t, ht, hr⟩
    obtain ⟨hm, hid, hcfg⟩ := map.mem_listings.mp ht
    exact ⟨t, List.mem_filter.mpr ⟨hm, requires_iff.mpr hr⟩, Prod.ext hid hcfg⟩

/-- A typology that waits for a rule waits for its id. -/
theorem WaitsFor.mem_requiredRuleIds {map : NetworkMap} {key : String × String}
    {id cfg : String} (h : map.WaitsFor key id cfg) : id ∈ map.requiredRuleIds key.1 key.2 := by
  obtain ⟨t, ht, rule, hr, hid, -⟩ := h
  exact map.mem_requiredRuleIds.mpr ⟨t, ht, rule, hr, hid⟩

/-- In a map that lists no rule in two versions, typologies wait for every version of their rules.
-/
theorem SingleVersion.waitsForEveryVersion {map : NetworkMap} (h : map.SingleVersion)
    (typology : String × String) : map.WaitsForEveryVersion typology := by
  intro t ht rule hr hid
  obtain ⟨own, hown, listed, hl, hlid⟩ := map.mem_requiredRuleIds.mp hid
  have hcfg := h own (map.mem_listings.mp hown).1 listed hl t ht rule hr hlid
  exact ⟨own, hown, listed, hl, hlid, hcfg⟩

/-- The place of the first listing of a typology that waits for a result. -/
def firstRequiring (new : RuleResult) (key : String × String) : Nat :=
  Distinct.firstAt (·.requires new) Typology.key map.typologies key

/-- The touched typologies do not repeat. -/
theorem nodup_touchedBy (new : RuleResult) : (touchedBy map new).Nodup :=
  Distinct.nodup_eraseDups _

/-- The touched typologies are in the order of the first listing that waits for the result. -/
theorem pairwise_touchedBy (new : RuleResult) :
    (touchedBy map new).Pairwise fun a b ↦
      map.firstRequiring new a < map.firstRequiring new b :=
  Distinct.pairwise_firstAt_eraseDups _ _ _

end NetworkMap

end RiskTypology
