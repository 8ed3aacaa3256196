import RiskTypology.Proofs.Last
import RiskTypology.Proofs.Routing.Failures
import RiskTypology.Proofs.Routing.Ruling
import RiskTypology.Service.Start

/-!
# The definitions of a repository

Of several definitions for one typology the last given counts. A repository answers with it, counts
each typology once, and is empty only when nothing was given. Routing sees of the definitions what
the repository answers, so what else was given, and in which order, does not show in what it sends.
-/

namespace RiskTypology

/-- The last definition given for a typology. -/
def LastGiven (ds : List Definition) (id cfg : String) : Definition → Prop :=
  IsLast (fun d ↦ d.id = id ∧ d.cfg = cfg) ds

/-- Routing looks definitions up in a repository. -/
def Routes.LooksUpIn (routes : Routes) (r : Repository) : Prop :=
  routes.define = fun id cfg ↦ .ok (r.find? id cfg)

namespace Repository

variable {ds ds' : List Definition} {id cfg : String}

/-- A repository finds a definition by searching from behind. -/
theorem find?_eq_findRev? :
    find? ⟨ds⟩ id cfg = ds.findRev? fun d ↦ decide (d.id = id ∧ d.cfg = cfg) := by
  rw [find?, table, getElem?_ofList_keyed]
  congr 1
  funext d
  rw [Definition.key, Bool.eq_iff_iff, beq_iff_eq, Prod.mk.injEq, decide_eq_true_eq]

/-- A repository answers with the last definition given. -/
theorem find?_eq_some_iff {d : Definition} :
    find? ⟨ds⟩ id cfg = some d ↔ LastGiven ds id cfg d := by
  rw [find?_eq_findRev?, ← isLast_iff_findRev?]
  simp only [decide_eq_true_eq, LastGiven]

/-- A repository has no answer when no definition is given for the typology. -/
theorem find?_eq_none_iff :
    find? ⟨ds⟩ id cfg = none ↔ ∀ d ∈ ds, ¬ (d.id = id ∧ d.cfg = cfg) := by
  rw [find?_eq_findRev?, List.findRev?_eq_find?_reverse, List.find?_eq_none]
  simp only [List.mem_reverse, decide_eq_true_eq]

/-- A repository counts the typologies with a definition. -/
theorem size_eq_card : size ⟨ds⟩ = (ds.map Definition.key).toFinset.card :=
  size_ofList_keyed Definition.key ds

/-- A repository is empty when nothing is given. -/
theorem isEmpty_iff : isEmpty ⟨ds⟩ = true ↔ ds = [] := by
  rw [isEmpty, table, Std.HashMap.isEmpty_ofList, List.isEmpty_iff, List.map_eq_nil_iff]

/-- Repositories with the same last definitions find the same. -/
theorem find?_eq_of_lastGiven (h : ∀ id cfg d, LastGiven ds id cfg d ↔ LastGiven ds' id cfg d) :
    find? ⟨ds⟩ = find? ⟨ds'⟩ := by
  funext id cfg
  apply Option.ext
  intro d
  rw [find?_eq_some_iff, find?_eq_some_iff, h]

/-- Routings that look definitions up in repositories that find the same, and that have the same
interdiction channel, send the same apart from times. -/
theorem map_timeless_sends_route {r r' : Repository} {routes routes' : Routes}
    (hr : routes.LooksUpIn r) (hr' : routes'.LooksUpIn r') (hfind : r.find? = r'.find?)
    (hchannel : routes.interdictionChannel = routes'.interdictionChannel) (c : Context)
    (counts : RuleCounts) (reports : List TypologyResult) :
    (Effect.sends (route routes c counts reports).effects).map Send.timeless =
      (Effect.sends (route routes' c counts reports).effects).map Send.timeless := by
  have hdefine : routes.define = routes'.define := by rw [hr, hr', hfind]
  exact Effect.map_timeless_sends (undisturbed_route_timeless c counts hdefine hchannel reports)

/-- A service looks definitions up in the repository it is started with. -/
theorem looksUpIn_ofConfiguration {c : ProcessorSettings} {r : Repository} {post : Url → Reply}
    {s : Service} (h : Service.ofConfiguration c r post = .ok s) :
    s.services.routes.LooksUpIn r := by
  obtain ⟨channels, -, h⟩ := Draft.bind_eq_ok.mp h
  cases h
  rfl

/-- The last definition given for a typology counts, whatever else is given. It is the one that is
found, and none is found for a typology that none is given for; the size is the number of different
typologies, and only what is made of nothing is empty. When definitions agree with others on the
last for every typology, every routing sends the same with these as with those, times aside. -/
theorem last_given_counts (ds : List Definition) :
    (∀ id cfg d, find? ⟨ds⟩ id cfg = some d ↔ LastGiven ds id cfg d) ∧
    (∀ id cfg, find? ⟨ds⟩ id cfg = none ↔ ∀ d ∈ ds, ¬ (d.id = id ∧ d.cfg = cfg)) ∧
    size ⟨ds⟩ = (ds.map Definition.key).toFinset.card ∧
    (isEmpty ⟨ds⟩ = true ↔ ds = []) ∧
    ∀ ds', (∀ id cfg d, LastGiven ds id cfg d ↔ LastGiven ds' id cfg d) →
      ∀ routes routes' : Routes, routes.LooksUpIn ⟨ds⟩ → routes'.LooksUpIn ⟨ds'⟩ →
        routes.interdictionChannel = routes'.interdictionChannel →
        ∀ c counts reports,
          (Effect.sends (route routes c counts reports).effects).map Send.timeless =
            (Effect.sends (route routes' c counts reports).effects).map Send.timeless := by
  refine ⟨fun _ _ _ ↦ find?_eq_some_iff, fun _ _ ↦ find?_eq_none_iff, size_eq_card, isEmpty_iff, ?_⟩
  intro ds' hlast routes routes' hr hr' hchannel c counts reports
  exact map_timeless_sends_route hr hr' (find?_eq_of_lastGiven hlast) hchannel c counts reports

private def fiveWith (id : String) (workflow : Thresholds) : Definition :=
  { id, cfg := "1", rules := [], expression := .literal 5.0, workflow }

private def outdated : Definition := fiveWith "T" {}

private def current : Definition := fiveWith "T" { interdiction := some 1.0 }

private def other : Definition := fiveWith "U" {}

private def lookingUp (ds : List Definition) (elapsed : UInt64) : Routes :=
  ⟨fun id cfg ↦ .ok (find? ⟨ds⟩ id cfg), "cms", fun _ _ ↦ none, fun _ ↦ elapsed⟩

private def ungathered : TypologyResult :=
  { id := "T", cfg := "1", result := unscoredMark, ruleResults := [], workflow := {} }

private def context : Context :=
  ⟨{ messages := [] }, ⟨"pacs.002.001.12", ⟨⟨"m", []⟩, []⟩, []⟩, none⟩

private theorem lastGiven_without_outdated (id cfg : String) (d : Definition) :
    LastGiven [outdated, other, current] id cfg d ↔ LastGiven [current, other] id cfg d := by
  simp only [← find?_eq_some_iff, find?_eq_findRev?, List.findRev?]
  by_cases hc : current.id = id ∧ current.cfg = cfg
  · have ho : ¬ (other.id = id ∧ other.cfg = cfg) := by
      obtain ⟨rfl, rfl⟩ := hc
      decide
    simp [hc, ho]
  · have ho : ¬ (outdated.id = id ∧ outdated.cfg = cfg) := hc
    simp [hc, ho]

private theorem channels_of_current {ds : List Definition} (h : find? ⟨ds⟩ "T" "1" = some current)
    (elapsed : UInt64) (counts : RuleCounts) :
    (Effect.sends (route (lookingUp ds elapsed) context counts [ungathered]).effects).map
      Send.channels = [["cms"], []] := by
  have hdefine : (lookingUp ds elapsed).define ungathered.id ungathered.cfg = .ok (some current) :=
    congrArg Except.ok h
  have hrulings := congrArg (List.map Ruling.channels)
    (map_ruling_route (lookingUp ds elapsed) context counts [ungathered])
  rw [List.map_map] at hrulings
  refine hrulings.trans ?_
  have hready : isReady context.networkMap ungathered = true := by decide
  have hverdict : Verdict.ofScore (current.score ungathered.ruleResults).value current.workflow =
      .interdict := by decide
  simp only [List.filter_cons_of_pos hready, List.filter_nil, List.flatMap_singleton, rulings,
    hdefine, if_pos hverdict]
  rfl

/-- Of two definitions for a typology the last is found, and the typology is interdicted by it.
Without the other one, and given in another order, the definitions make routing send the same. -/
theorem interdicted_by_last :
    find? ⟨[outdated, other, current]⟩ "T" "1" = some current ∧
      find? ⟨[outdated, other, current]⟩ "T" "2" = none ∧
      size ⟨[outdated, other, current]⟩ = 2 ∧
      isEmpty ⟨[outdated, other, current]⟩ = false ∧
      (∀ id cfg d,
        LastGiven [outdated, other, current] id cfg d ↔ LastGiven [current, other] id cfg d) ∧
      (Effect.sends (route (lookingUp [outdated, other, current] 3) context ⟨1, 1⟩
        [ungathered]).effects).map Send.channels = [["cms"], []] ∧
      (Effect.sends (route (lookingUp [outdated, other, current] 3) context ⟨1, 1⟩
        [ungathered]).effects).map Send.timeless =
        (Effect.sends (route (lookingUp [current, other] 8) context ⟨1, 1⟩
          [ungathered]).effects).map Send.timeless := by
  obtain ⟨hsome, hnone, hsize, hempty, hroute⟩ := last_given_counts [outdated, other, current]
  have hlast : find? ⟨[outdated, other, current]⟩ "T" "1" = some current :=
    (hsome _ _ _).mpr ⟨[outdated, other], [], rfl, ⟨rfl, rfl⟩, by simp⟩
  refine ⟨hlast, (hnone _ _).mpr ?_, hsize.trans (by decide), ?_, lastGiven_without_outdated,
    channels_of_current hlast 3 ⟨1, 1⟩, ?_⟩
  · simp only [List.forall_mem_cons]
    decide
  · rw [← Bool.not_eq_true, hempty]
    exact List.cons_ne_nil _ _
  · exact hroute [current, other] lastGiven_without_outdated (lookingUp _ 3) (lookingUp _ 8) rfl rfl
      rfl context ⟨1, 1⟩ [ungathered]

end Repository
end RiskTypology
