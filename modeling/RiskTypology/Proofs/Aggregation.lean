import RiskTypology.Proofs.Readiness

/-!
# What an aggregation is

A new result touches the typologies some listing of which has its rule, in its version. Each of
these is reported on if any result has been gathered under a rule id that any of its listings has,
whatever the version. The main statement: this settles an aggregation, with the order of its reports
and what they bundle, and one pass over the listings of the map, which takes each typology where it
is first seen to wait for the new result, comes to the same.
-/

namespace RiskTypology

namespace NetworkMap

/-- A typology waits for a rule, in whatever version, by one of its listings. -/
def WaitsForId (map : NetworkMap) (typology : String × String) (ruleId : String) : Prop :=
  ∃ t ∈ map.listings typology.1 typology.2, ∃ rule ∈ t.rules, rule.id = ruleId

/-- Whether a typology waits for a rule can be tested. -/
instance (map : NetworkMap) (typology : String × String) (ruleId : String) :
    Decidable (map.WaitsForId typology ruleId) :=
  inferInstanceAs (Decidable (∃ t ∈ map.listings typology.1 typology.2, ∃ rule ∈ t.rules, _))

end NetworkMap

namespace Aggregation

/-- What the aggregation of a new result has to be. -/
structure Answers (map : NetworkMap) (gathered : List RuleResult) (new : RuleResult)
    (a : Aggregation) : Prop where
  /-- No typology is reported on twice. -/
  distinct : (a.results.map (·.key)).Nodup
  /-- The typologies reported on wait for the new result, in its version, and have gathered some
  result of a rule they wait for. -/
  touched : ∀ id cfg, (id, cfg) ∈ a.results.map (·.key) ↔
    map.WaitsFor (id, cfg) new.id new.cfg ∧ ∃ r ∈ gathered, map.WaitsForId (id, cfg) r.id
  /-- They are in the order of the first listing that waits for the new result. -/
  ordered : (a.results.map (·.key)).Pairwise fun k l ↦
    map.firstRequiring new k < map.firstRequiring new l
  /-- Each report bundles the gathered results its typology waits for, as they were gathered. -/
  bundled : ∀ report ∈ a.results,
    report.ruleResults = gathered.filter fun r ↦ map.WaitsForId report.key r.id
  /-- A report says nothing else yet. -/
  blank : ∀ report ∈ a.results, report.result = unscoredMark ∧ report.review = false ∧
    report.workflow = ⟨unscoredMark, none⟩ ∧ report.duration = none
  /-- The rules of the map are counted by their ids. -/
  counted : a.ruleCount = ((map.typologies.flatMap (·.rules)).map (·.id)).toFinset.card

end Aggregation

variable (map : NetworkMap) (gathered : List RuleResult) (new : RuleResult)

private theorem relevant_eq (key : String × String) :
    relevant map gathered key.1 key.2 = gathered.filter fun r ↦ map.WaitsForId key r.id := by
  apply List.filter_congr
  intro r _
  rw [Bool.eq_iff_iff, List.contains_iff_mem, decide_eq_true_iff]
  exact map.mem_requiredRuleIds

/-- A typology is reported on if a result it waits for has been gathered. -/
theorem report?_eq (key : String × String) :
    report? map gathered key =
      if ∃ r ∈ gathered, map.WaitsForId key r.id then some (reported map gathered key)
      else none := by
  unfold report?
  split
  · next h =>
    rw [relevant_eq, List.filter_eq_nil_iff] at h
    rw [if_neg]
    rintro ⟨r, hr, hw⟩
    exact h r hr (decide_eq_true hw)
  · next hne =>
    rw [relevant_eq] at hne
    rw [if_pos, reported]
    by_contra hn
    apply hne
    apply List.filter_eq_nil_iff.mpr
    intro r hr hw
    exact hn ⟨r, hr, of_decide_eq_true hw⟩

/-- The reports of an aggregation are those on the touched typologies that have gathered
anything. -/
theorem results_aggregate :
    (aggregate map gathered new).results =
      ((touchedBy map new).filter fun key ↦ ∃ r ∈ gathered, map.WaitsForId key r.id).map
        (reported map gathered) := by
  rw [aggregate, ← List.filterMap_eq_map, List.filterMap_filter]
  apply List.filterMap_congr
  intro key _
  rw [report?_eq]
  simp

/-- Those typologies, in the order of their reports. -/
theorem map_key_aggregate :
    (aggregate map gathered new).results.map (·.key) =
      (touchedBy map new).filter fun key ↦ ∃ r ∈ gathered, map.WaitsForId key r.id := by
  rw [results_aggregate, List.map_map]
  exact List.map_id _

/-- The aggregation of a new result is what it has to be. -/
theorem answers_aggregate : (aggregate map gathered new).Answers map gathered new where
  distinct := by
    rw [map_key_aggregate]
    exact (map.nodup_touchedBy new).filter _
  touched id cfg := by
    rw [map_key_aggregate, List.mem_filter, map.mem_touchedBy, decide_eq_true_iff]
  ordered := by
    rw [map_key_aggregate]
    exact (map.pairwise_touchedBy new).filter _
  bundled report h := by
    rw [results_aggregate] at h
    obtain ⟨key, -, rfl⟩ := List.mem_map.mp h
    exact relevant_eq map gathered key
  blank report h := by
    rw [results_aggregate] at h
    obtain ⟨key, -, rfl⟩ := List.mem_map.mp h
    exact ⟨rfl, rfl, rfl, rfl⟩
  counted := NetworkMap.length_ruleIds map.typologies

namespace Aggregation

variable {map gathered new} {a b : Aggregation}

/-- What is required of a report leaves nothing open but its typology. -/
theorem Answers.report_eq (h : a.Answers map gathered new) {report : TypologyResult}
    (hr : report ∈ a.results) : reported map gathered report.key = report := by
  obtain ⟨hresult, hreview, hworkflow, hduration⟩ := h.blank report hr
  have hbundled := (relevant_eq map gathered report.key).trans (h.bundled report hr).symm
  cases report
  subst hresult hreview hworkflow hduration
  exact congrArg (TypologyResult.unscored _ _) hbundled

/-- What is required of an aggregation leaves nothing open. -/
theorem Answers.eq (ha : a.Answers map gathered new) (hb : b.Answers map gathered new) : a = b := by
  have hperm : (a.results.map (·.key)).Perm (b.results.map (·.key)) := by
    rw [List.perm_ext_iff_of_nodup ha.distinct hb.distinct]
    rintro ⟨id, cfg⟩
    rw [ha.touched, hb.touched]
  have hkeys : a.results.map (·.key) = b.results.map (·.key) :=
    hperm.eq_of_pairwise (fun _ _ _ _ hlt hgt ↦ absurd hgt (Nat.lt_asymm hlt)) ha.ordered hb.ordered
  have hresults {c : Aggregation} (hc : c.Answers map gathered new) :
      (c.results.map (·.key)).map (reported map gathered) = c.results := by
    rw [List.map_map]
    exact (List.map_congr_left fun report hr ↦ hc.report_eq hr).trans (List.map_id _)
  have heq : a.results = b.results := by
    rw [← hresults ha, hkeys, hresults hb]
  have hcount : a.ruleCount = b.ruleCount := ha.counted.trans hb.counted.symm
  cases a
  cases b
  simp_all

end Aggregation

/-- Pass over listings with a note of the typologies that have been taken. A listing that waits for
the new result has its typology taken, reported on or not, unless that has been taken before. -/
def scan : List Typology → List (String × String) → List TypologyResult
  | [], _ => []
  | t :: rest, taken =>
    if t.requires new && !taken.contains t.key then
      match report? map gathered t.key with
      | some report => report :: scan rest (t.key :: taken)
      | none => scan rest (t.key :: taken)
    else scan rest taken

/-- A pass reports on the typologies that have not been taken before it. -/
theorem scan_eq (listings : List Typology) (taken : List (String × String)) :
    scan map gathered new listings taken =
      ((listings.filter fun t ↦ t.requires new && !taken.contains t.key).map
        Typology.key).eraseDups.filterMap (report? map gathered) := by
  induction listings generalizing taken with
  | nil => rfl
  | cons t rest ih =>
    rw [scan]
    split
    · next h =>
      -- What is taken with this listing is what dropping repeats drops behind it.
      have hrest : (rest.filter fun u ↦ u.requires new && !(t.key :: taken).contains u.key).map
          Typology.key = ((rest.filter fun u ↦ u.requires new && !taken.contains u.key).map
            Typology.key).filter fun key ↦ !key == t.key := by
        rw [List.filter_map, List.filter_filter]
        congr 1
        apply List.filter_congr
        intro u _
        rw [List.contains_cons, Bool.not_or, Bool.and_left_comm, Function.comp_apply]
      rw [List.filter_cons_of_pos (by simpa using h), List.map_cons, List.eraseDups_cons,
        List.filterMap_cons, ih, hrest]
      cases report? map gathered t.key <;> rfl
    · next h => rw [ih, List.filter_cons_of_neg (by simpa using h)]

/-- An aggregation is the aggregation of a new result exactly if it is what it has to be, and one
pass over the map makes its reports. Once the new result itself is gathered, every typology that
waits for it, in its version, is reported on. -/
theorem answers_iff_eq_aggregate :
    (∀ a : Aggregation, a.Answers map gathered new ↔ a = aggregate map gathered new) ∧
    scan map gathered new map.typologies [] = (aggregate map gathered new).results ∧
    (new ∈ gathered → ∀ id cfg, map.WaitsFor (id, cfg) new.id new.cfg →
      (id, cfg) ∈ (aggregate map gathered new).results.map (·.key)) := by
  have hanswers := answers_aggregate map gathered new
  refine ⟨fun a ↦ ⟨fun h ↦ h.eq hanswers, ?_⟩, ?_, ?_⟩
  · rintro rfl
    exact hanswers
  · rw [scan_eq]
    simp only [List.contains_nil, Bool.not_false, Bool.and_true]
    rfl
  · intro hnew id cfg h
    have ⟨t, ht, rule, hr, hid, _⟩ := h
    exact (hanswers.touched id cfg).mpr ⟨h, new, hnew, t, ht, rule, hr, hid⟩

private def scatteredListings : NetworkMap :=
  { messages :=
      [⟨"004@1.0.0", "1.0.0", "pacs.002.001.12",
        [⟨"001@1.0.0", "1.0.0",
          [⟨"T", "1", [⟨"A", "1"⟩, ⟨"B", "1"⟩]⟩, ⟨"U", "1", [⟨"B", "1"⟩]⟩]⟩,
        ⟨"002@1.0.0", "1.0.0", [⟨"V", "1", [⟨"A", "2"⟩]⟩, ⟨"W", "1", [⟨"A", "1"⟩]⟩]⟩]⟩,
      ⟨"005@1.0.0", "1.0.0", "pain.001.001.11",
        [⟨"001@1.0.0", "1.0.0",
          [⟨"T", "2", [⟨"A", "1"⟩, ⟨"D", "1"⟩]⟩, ⟨"T", "1", [⟨"C", "1"⟩, ⟨"A", "1"⟩]⟩]⟩]⟩] }

private def outcomeOf (id cfg : String) : RuleResult :=
  { id := id, cfg := cfg, subRuleRef := ".01" }

/-- Listings over two messages and three channels, one typology in two of them and in two versions:
the reports are on those that wait for the rule in its version and have gathered something, with
what any of their listings waits for in any version. -/
theorem answers_over_channels :
    let gathered := [outcomeOf "B" "1", outcomeOf "C" "3", outcomeOf "E" "1", outcomeOf "D" "1",
      outcomeOf "B" "1"]
    let answer : Aggregation :=
      ⟨[.unscored "T" "1" [outcomeOf "B" "1", outcomeOf "C" "3", outcomeOf "B" "1"],
        .unscored "T" "2" [outcomeOf "D" "1"]], 4⟩
    aggregate scatteredListings gathered (outcomeOf "A" "1") = answer ∧
      answer.Answers scatteredListings gathered (outcomeOf "A" "1") := by
  intro gathered answer
  have haggregate : aggregate scatteredListings gathered (outcomeOf "A" "1") = answer := rfl
  obtain ⟨hiff, -⟩ := answers_iff_eq_aggregate scatteredListings gathered (outcomeOf "A" "1")
  exact ⟨haggregate, (hiff answer).mpr haggregate.symm⟩

end RiskTypology
