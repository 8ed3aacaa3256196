import RiskTypology.Proofs.Accumulator.Readable
import RiskTypology.Proofs.Pass.Finish

/-!
# The effect of a pass on the store

What a pass leaves in the store, on every path. A pass that cannot append leaves the store as it is;
one that meets a record it cannot read leaves its own record behind and is aborted; any other leaves
its record as well, unless it deletes the entry because its counts are complete. No pass touches
another key.
-/

namespace RiskTypology

/-- A store that has got one more record under a key, in the entry that is there or in a new one. -/
structure Store.Extends (after before : Store) (now : Nat) (key : String) (record : Json) :
    Prop where
  entry : after.get? key =
    some ⟨((before.get? key).map (·.created)).getD now, before.records key ++ [record]⟩
  others : ∀ other ≠ key, after.get? other = before.get? other
  ttl : after.ttl = before.ttl

/-- An append adds its record and nothing else. -/
theorem Store.extends_append {s : Store} (h : s.ttl = none) (now : Nat) (key : String)
    (record : Json) : (s.append now key record).Extends s now key record where
  entry := get?_append_self h now key record
  others := fun _ hne ↦ get?_append_of_ne h now record hne
  ttl := ttl_append s now key record

namespace Pass

/-- A pass that is aborted: nothing is emitted, sent, counted or deleted. -/
structure Stopped (p : Pass) (key : String) : Prop where
  outcome : p.outcome = .aborted key
  sends : Effect.sends p.effects = []
  metrics : Effect.metrics p.effects = []

/-- A pass that goes through with what the records under its key hold: it deletes the entry if its
counts are complete and the store deletes, and otherwise leaves its record there. -/
structure Completed (p : Pass) (services : Services) (before : Store) (event : Event)
    (results : List RuleResult) : Prop where
  counts : p.outcome.counts = some (counts event results)
  cleanedUp : p.outcome.cleanedUp = true ↔
    event.networkMap.ruleCount ≤ RuleResult.distinctCount results ∧
      services.store.deleteError = none
  deleted : p.store.get? event.cacheKey = none ↔ p.outcome.cleanedUp = true
  kept : p.outcome.cleanedUp = false →
    p.store.Extends before services.now event.cacheKey (StoredResult.toJson ⟨event.ruleResult⟩)

section

variable (services : Services) {store : Store} (event : Event)

/-- A pass stopped with a notice does nothing else. -/
theorem stopped_of_told (key : String) (after : Store) (notice : Notice) :
    Stopped ⟨.aborted key, after, [.told notice]⟩ key := ⟨rfl, rfl, rfl⟩

/-- A working store appends what a pass saves. -/
theorem extends_appended (ht : store.ttl = none) :
    (appended services store event).Extends store services.now event.cacheKey
      (StoredResult.toJson ⟨event.ruleResult⟩) :=
  Store.extends_append ht services.now event.cacheKey _

/-- A pass that finishes after its append goes through. -/
theorem completed_finish (ht : store.ttl = none) (results : List RuleResult) :
    (finish services (appended services store event) event results).Completed services store event
      results where
  counts := rfl
  cleanedUp := by
    rw [cleanedUp_finish, counts, RuleCounts.isComplete, decide_eq_true_iff]
  deleted := by
    cases hc :
        (finish services (appended services store event) event results).outcome.cleanedUp with
    | true =>
      rw [store_finish_of_cleanedUp _ _ _ _ hc]
      exact iff_of_true (Store.get?_delete_self _ _) rfl
    | false =>
      rw [store_finish_of_not_cleanedUp _ _ _ _ hc, (extends_appended services event ht).entry]
      simp
  kept := by
    intro hc
    rw [store_finish_of_not_cleanedUp _ _ _ _ hc]
    exact extends_appended services event ht

/-- A pass that finishes after its append leaves the entries of other keys alone. -/
theorem get?_finish_of_ne (ht : store.ttl = none) (results : List RuleResult) {other : String}
    (hne : other ≠ event.cacheKey) :
    (finish services (appended services store event) event results).store.get? other =
      store.get? other := by
  rw [← (extends_appended services event ht).others other hne]
  cases hc : (finish services (appended services store event) event results).outcome.cleanedUp with
  | true => rw [store_finish_of_cleanedUp _ _ _ _ hc, Store.get?_delete_of_ne _ hne]
  | false => rw [store_finish_of_not_cleanedUp _ _ _ _ hc]

variable (store) in
/-- The three courses of a pass: nothing can be appended, some record cannot be read once the pass
has appended its own, or the pass finishes with what the records hold. -/
theorem run_cases (ht : store.ttl = none) :
    let p := run services store event
    let records := store.records event.cacheKey ++ [StoredResult.toJson ⟨event.ruleResult⟩]
    (services.store.append ≠ .works ∧
      ∃ notice, p = ⟨.aborted event.cacheKey, store, [.told notice]⟩) ∨
    (services.store.append = .works ∧ (¬ ∀ j ∈ records, StoredResult.isReadable j = true) ∧
      ∃ notice, p = ⟨.aborted event.cacheKey, appended services store event, [.told notice]⟩) ∨
    (services.store.append = .works ∧ (∀ j ∈ records, StoredResult.isReadable j = true) ∧
      ∃ results, Store.decodeAll records = .ok results ∧
        p = finish services (appended services store event) event results) := by
  intro p records
  have hrecords : (appended services store event).records event.cacheKey = records :=
    Store.records_append_self ht services.now event.cacheKey _
  by_cases hm : services.store.append = .works
  · rw [← Store.isOk_decodeAll_iff]
    cases hd : Store.decodeAll records with
    | error fault =>
      exact .inr (.inl ⟨hm, Bool.false_ne_true, run_of_unreadable hm (hrecords ▸ hd)⟩)
    | ok results =>
      exact .inr (.inr ⟨hm, rfl, results, rfl, run_of_readable hm (hrecords ▸ hd)⟩)
  · exact .inl ⟨hm, run_of_not_appending store event hm⟩

variable {services event}

/-- A pass leaves the entries of other keys alone. -/
theorem get?_run_of_ne (ht : store.ttl = none) {other : String} (hne : other ≠ event.cacheKey) :
    (run services store event).store.get? other = store.get? other := by
  obtain ⟨-, notice, hp⟩ | ⟨-, -, notice, hp⟩ | ⟨-, -, results, -, hp⟩ :=
    run_cases services store event ht
  · rw [hp]
  · rw [hp]
    exact (extends_appended services event ht).others other hne
  · rw [hp]
    exact get?_finish_of_ne services event ht results hne

/-- A pass gives a store no time to live. -/
theorem ttl_run (ht : store.ttl = none) : (run services store event).store.ttl = none := by
  have hext := (extends_appended services event ht).ttl.trans ht
  obtain ⟨-, notice, hp⟩ | ⟨-, -, notice, hp⟩ | ⟨-, -, results, -, hp⟩ :=
    run_cases services store event ht
  · rw [hp]
    exact ht
  · rw [hp]
    exact hext
  · rw [hp]
    cases hc :
        (finish services (appended services store event) event results).outcome.cleanedUp with
    | true =>
      rw [store_finish_of_cleanedUp _ _ _ _ hc]
      exact hext
    | false =>
      rw [store_finish_of_not_cleanedUp _ _ _ _ hc]
      exact hext

end

/-- What a pass leaves in a store without a time to live, whatever fails and whatever the store
holds. If nothing can be appended the store stays as it is; if some record under the key cannot be
read the pass's own is added; either way the pass is aborted and does nothing else. Otherwise it
goes through, and the entry of its key is gone exactly if it cleaned up. No other key changes in any
case. -/
theorem store_after_run (services : Services) (store : Store) (event : Event)
    (ht : store.ttl = none) :
    let p := run services store event
    let record := StoredResult.toJson ⟨event.ruleResult⟩
    (services.store.append ≠ .works → p.store = store ∧ p.Stopped event.cacheKey) ∧
    (services.store.append = .works →
      (∃ j ∈ store.records event.cacheKey ++ [record], StoredResult.isReadable j = false) →
        p.store.Extends store services.now event.cacheKey record ∧ p.Stopped event.cacheKey) ∧
    (services.store.append = .works →
      (∀ j ∈ store.records event.cacheKey ++ [record], StoredResult.isReadable j = true) →
        ∃ results, Store.decodeAll (store.records event.cacheKey ++ [record]) = .ok results ∧
          p.outcome.isAborted = false ∧ p.Completed services store event results) ∧
    ∀ other ≠ event.cacheKey, p.store.get? other = store.get? other := by
  intro p record
  have hext := extends_appended services event ht
  obtain ⟨hm, notice, hp⟩ | ⟨hm, hbad, notice, hp⟩ | ⟨hm, hall, results, hd, hp⟩ :=
    run_cases services store event ht
  -- Nothing can be appended.
  · rw [show p = _ from hp]
    exact ⟨fun _ ↦ ⟨rfl, stopped_of_told _ _ _⟩, fun hw ↦ absurd hw hm, fun hw ↦ absurd hw hm,
      fun _ _ ↦ rfl⟩
  -- Some record cannot be read: the append has happened already.
  · rw [show p = _ from hp]
    exact ⟨fun hn ↦ absurd hm hn, fun _ _ ↦ ⟨hext, stopped_of_told _ _ _⟩,
      fun _ hall ↦ absurd hall hbad, hext.others⟩
  · rw [show p = _ from hp]
    refine ⟨fun hn ↦ absurd hm hn, ?_, ?_, ?_⟩
    · rintro - ⟨j, hj, hbad⟩
      exact absurd (hall j hj) (Bool.eq_false_iff.mp hbad)
    · intro _ _
      exact ⟨results, hd, isAborted_finish _ _ _ _, completed_finish services event ht results⟩
    · intro other hne
      exact get?_finish_of_ne services event ht results hne

private def singleRule : NetworkMap := .ofTypologies [⟨"T", "1", [⟨"A", "1"⟩]⟩]

private def foreignRecord : Json := .obj [("unexpected", .bool true)]

private def withForeign : Store :=
  { entries := [("TP_m", ⟨3, [foreignRecord]⟩), ("TP_n", ⟨4, []⟩)] }

private def fromM : Event := .ofRule singleRule "m" "A" "1"

private def fromN : Event := .ofRule singleRule "n" "A" "1"

/-- A record under one key that is no stored rule result: the pass for that key is aborted after its
append, and the pass for another key goes through and deletes its own entry only. -/
theorem stopped_by_foreign_record :
    withForeign.ttl = none ∧
      (run Services.plain withForeign fromM).Stopped "TP_m" ∧
      (run Services.plain withForeign fromM).store.get? "TP_m" =
        some ⟨3, [foreignRecord, StoredResult.toJson ⟨fromM.ruleResult⟩]⟩ ∧
      (run Services.plain withForeign fromN).store.get? "TP_n" = none ∧
      (run Services.plain withForeign fromN).store.get? "TP_m" = some ⟨3, [foreignRecord]⟩ := by
  have ht : withForeign.ttl = none := rfl
  obtain ⟨-, hunreadable, -, -⟩ := store_after_run Services.plain withForeign fromM ht
  obtain ⟨hextends, hstopped⟩ := hunreadable rfl ⟨foreignRecord, List.mem_cons_self, rfl⟩
  obtain ⟨-, -, hreadable, hothers⟩ := store_after_run Services.plain withForeign fromN ht
  have hown : ∀ j ∈ [StoredResult.toJson ⟨fromN.ruleResult⟩], StoredResult.isReadable j = true :=
    List.forall_mem_singleton.mpr (StoredResult.isReadable_toJson fromN.ruleResult)
  obtain ⟨results, hdecoded, -, hcompleted⟩ := hreadable rfl hown
  obtain rfl : [fromN.ruleResult.kept] = results := Except.ok.inj hdecoded
  refine ⟨ht, hstopped, hextends.entry, ?_, hothers "TP_m" (by decide)⟩
  exact hcompleted.deleted.mpr (hcompleted.cleanedUp.mpr ⟨by decide, rfl⟩)

end Pass
end RiskTypology
