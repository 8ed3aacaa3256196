import RiskTypology.Proofs.Run.Accumulation

/-!
# Deletion

How often the entry of a transaction is deleted. A deletion leaves nothing behind, so what is
reported afterwards makes a new entry, and that is deleted as soon as every rule of the map has been
reported again. At most one turn of a run deletes exactly if after each that does some rule of the
map is not reported any more.
-/

namespace RiskTypology

/-- At most one turn has a property exactly if after each that has it none does. -/
private theorem countP_le_one_iff {p : Turn → Bool} {all : List Turn} :
    all.countP p ≤ 1 ↔
      ∀ earlier here later, all = earlier ++ here :: later → p here = true →
        ∀ t ∈ later, p t = false := by
  constructor
  · rintro hle earlier here later rfl hp
    rw [List.countP_append, List.countP_cons_of_pos hp] at hle
    have hzero : later.countP p = 0 := by omega
    intro t ht
    simpa using List.countP_eq_zero.mp hzero t ht
  · intro h
    by_cases hex : ∃ t ∈ all, p t = true
    · obtain ⟨earlier, here, later, rfl, hp, he⟩ := exists_first hex
      have hl := h earlier here later rfl hp
      have hbefore : earlier.countP p = 0 := List.countP_eq_zero.mpr fun t ht ↦ by simp [he t ht]
      have hafter : later.countP p = 0 := List.countP_eq_zero.mpr fun t ht ↦ by simp [hl t ht]
      rw [List.countP_append, List.countP_cons_of_pos hp]
      omega
    · have hnone : all.countP p = 0 := List.countP_eq_zero.mpr fun t ht hp ↦ hex ⟨t, ht, hp⟩
      omega

namespace Reporting

variable {map : NetworkMap} {messageId : String} {store : Store}
  {inputs : List (Services × Event)} (hr : Reporting map messageId store inputs)
  {earlier between later : List Turn} {here again : Turn}

include hr in
/-- The turn after one that cleans up finds no entry for the transaction. -/
theorem fresh_after_cleanedUp (h : turns store inputs = earlier ++ here :: later)
    (hc : here.pass.outcome.cleanedUp = true) :
    ∀ t ∈ later.head?, t.before.contains (Transaction.cacheKeyOf messageId) = false := by
  intro t ht
  obtain ⟨rest, rfl⟩ := List.head?_eq_some_iff.mp ht
  rw [before_next h]
  exact hr.contains_of_cleanedUp h hc

include hr in
/-- After a turn that cleans up the next to clean up is the first by which every rule of the map has
been reported since. -/
theorem cleanedUp_again_iff
    (h : turns store inputs = earlier ++ here :: (between ++ again :: later))
    (hc : here.pass.outcome.cleanedUp = true)
    (hb : ∀ t ∈ between, t.pass.outcome.cleanedUp = false) :
    again.pass.outcome.cleanedUp = true ↔
      map.allRuleIds ⊆ (between ++ [again]).map Turn.ruleId := by
  have hfirst := hr.fresh_after_cleanedUp h hc
  rw [← List.singleton_append, ← List.append_assoc] at h
  have ha : Accumulate (between ++ [again]) :=
    hr.accumulate h (by simpa [List.head?_append] using hfirst) hb
  rw [← List.append_assoc] at h
  rw [hr.cleanedUp_turn h]
  exact ha.stores_iff rfl

include hr in
/-- No turn after one that cleans up does so again exactly if some rule of the map is not reported
any more. -/
theorem none_cleanedUp_after_iff (h : turns store inputs = earlier ++ here :: later)
    (hc : here.pass.outcome.cleanedUp = true) :
    (∀ t ∈ later, t.pass.outcome.cleanedUp = false) ↔
      ∃ id ∈ map.allRuleIds, id ∉ later.map Turn.ruleId := by
  constructor
  · intro hnone
    cases later using List.reverseRecOn with
    | nil => exact ⟨here.ruleId, hr.ruleId_mem (mem_turns h), by simp⟩
    | append_singleton between again =>
      have hlast : again.pass.outcome.cleanedUp = false := hnone again (by simp)
      by_contra hall
      have hsub : map.allRuleIds ⊆ (between ++ [again]).map Turn.ruleId := by
        intro id hid
        by_contra hn
        exact hall ⟨id, hid, hn⟩
      rw [(hr.cleanedUp_again_iff h hc fun t ht ↦ hnone t (by simp [ht])).mpr hsub] at hlast
      cases hlast
  · rintro ⟨id, hid, hn⟩ t ht
    by_contra hct
    obtain ⟨between, again, rest, rfl, hagain, hb⟩ :=
      exists_first (p := (·.pass.outcome.cleanedUp)) ⟨t, ht, by simpa using hct⟩
    have hsub := (hr.cleanedUp_again_iff h hc hb).mp hagain
    apply hn
    rw [← List.singleton_append, ← List.append_assoc, List.map_append]
    exact List.mem_append_left _ (hsub hid)

/-- At most one turn of a run cleans up exactly if after each that does some rule of the map is not
reported any more. -/
theorem cleanedUp_at_most_once_iff (hr : Reporting map messageId store inputs) :
    (turns store inputs).countP (·.pass.outcome.cleanedUp) ≤ 1 ↔
      ∀ earlier here later, turns store inputs = earlier ++ here :: later →
        here.pass.outcome.cleanedUp = true →
        ∃ id ∈ map.allRuleIds, id ∉ later.map Turn.ruleId := by
  rw [countP_le_one_iff]
  constructor
  · intro h earlier here later hsplit hc
    exact (hr.none_cleanedUp_after_iff hsplit hc).mp (h earlier here later hsplit hc)
  · intro h earlier here later hsplit hc
    exact (hr.none_cleanedUp_after_iff hsplit hc).mpr (h earlier here later hsplit hc)

private def twoReports : NetworkMap := .ofTypologies [⟨"T", "1", [⟨"A", "1"⟩, ⟨"B", "1"⟩]⟩]

private def report (id : String) : Services × Event :=
  (Services.plain, .ofRule twoReports "m" id "1")

/-- One rule is reported again after the deletion and the other is not: the entry made anew stays.
-/
theorem cleaned_up_once :
    Reporting twoReports "m" {} [report "A", report "B", report "A"] ∧
      (turns {} [report "A", report "B", report "A"]).countP (·.pass.outcome.cleanedUp) ≤ 1 := by
  have hr : Reporting twoReports "m" {} [report "A", report "B", report "A"] := by
    constructor
    · rfl
    all_goals decide
  refine ⟨hr, (cleanedUp_at_most_once_iff hr).mpr ?_⟩
  intro earlier here later h hc
  refine ⟨"B", by decide, ?_⟩
  match earlier with
  | [] =>
    obtain ⟨rfl, -⟩ := List.cons.inj h
    exact absurd hc (by decide)
  | [_] =>
    obtain ⟨-, h⟩ := List.cons.inj h
    obtain ⟨-, rfl⟩ := List.cons.inj h
    decide
  | _ :: _ :: rest =>
    have hl := congrArg List.length h
    simp only [turns, List.length_cons, List.length_append, List.length_nil] at hl
    have hnil : later = [] := List.eq_nil_of_length_eq_zero (by omega)
    simp [hnil]

/-- Both rules are reported again after the deletion: the entry made anew is deleted too. -/
theorem cleaned_up_twice :
    Reporting twoReports "m" {} [report "A", report "B", report "A", report "B"] ∧
      (turns {} [report "A", report "B", report "A", report "B"]).countP
        (·.pass.outcome.cleanedUp) = 2 := by
  refine ⟨?_, by decide⟩
  constructor
  · rfl
  all_goals decide

end Reporting
end RiskTypology
