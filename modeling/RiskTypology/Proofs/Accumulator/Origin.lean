import RiskTypology.Model.Event
import RiskTypology.Proofs.Accumulator.Log

/-!
# Where records come from

Nothing comes into a store but what events report: each record is the stored form of a rule result
that an event has reported for the transaction whose key the record is under. That holds for any
time to live and while the store works and while it does not.
-/

namespace RiskTypology.Store

/-- A store whose every record is what one of some events has reported under the record's key. -/
def From (s : Store) (events : List Event) : Prop :=
  ∀ m ∈ s.entries, ∀ j ∈ m.2.records,
    ∃ e ∈ events, e.cacheKey = m.1 ∧ j = StoredResult.toJson ⟨e.ruleResult⟩

private theorem mem_put {key : String} {entry : StoreEntry} {entries : List (String × StoreEntry)}
    {m : String × StoreEntry} (h : m ∈ put key entry entries) : m = (key, entry) ∨ m ∈ entries := by
  induction entries with
  | nil => exact .inl (List.mem_singleton.mp h)
  | cons first rest ih =>
    unfold put at h
    split at h
    · rcases List.mem_cons.mp h with h | h
      · exact .inl h
      · exact .inr (List.mem_cons_of_mem _ h)
    · rcases List.mem_cons.mp h with h | h
      · exact .inr (h ▸ List.mem_cons_self)
      · exact (ih h).imp_right (List.mem_cons_of_mem _)

namespace From

variable {s : Store} {events : List Event}

/-- An empty store holds nothing that was not reported. -/
theorem of_entries_eq_nil (h : s.entries = []) : s.From [] := by
  intro m hm
  rw [h] at hm
  cases hm

/-- What has been reported stays so when more is. -/
theorem mono {events' : List Event} (h : s.From events) (hs : events ⊆ events') :
    s.From events' := by
  intro m hm j hj
  obtain ⟨e, he, hkey, hrecord⟩ := h m hm j hj
  exact ⟨e, hs he, hkey, hrecord⟩

/-- Eviction leaves nothing that was not there. -/
theorem evict (h : s.From events) (now : Nat) : (s.evict now).From events := by
  unfold Store.evict
  split
  · exact h
  · intro m hm
    exact h m (List.mem_filter.mp hm).1

/-- Deletion leaves nothing that was not there. -/
theorem delete (h : s.From events) (key : String) : (s.delete key).From events := by
  intro m hm
  exact h m (List.mem_filter.mp hm).1

/-- The records of a key are what events have reported under it. -/
theorem mem_records (h : s.From events) {key : String} {j : Json} (hj : j ∈ s.records key) :
    ∃ e ∈ events, e.cacheKey = key ∧ j = StoredResult.toJson ⟨e.ruleResult⟩ := by
  rw [records, records?, get?] at hj
  cases hl : s.entries.lookup key with
  | none => simp [hl] at hj
  | some entry =>
    rw [hl] at hj
    obtain ⟨before, after, hentries, -⟩ := List.lookup_eq_some_iff.mp hl
    exact h (key, entry) (by simp [hentries]) j hj

/-- What an event reports is added under its key. -/
theorem append (h : s.From events) (now : Nat) (event : Event) :
    (s.append now event.cacheKey (StoredResult.toJson ⟨event.ruleResult⟩)).From
      (events ++ [event]) := by
  have hkept : (s.evict now).From (events ++ [event]) :=
    (h.evict now).mono (List.subset_append_left _ _)
  have hown : ∃ e ∈ events ++ [event], e.cacheKey = event.cacheKey ∧
      StoredResult.toJson ⟨event.ruleResult⟩ = StoredResult.toJson ⟨e.ruleResult⟩ :=
    ⟨event, by simp, rfl, rfl⟩
  intro m hm j hj
  rcases mem_put hm with rfl | hm
  · simp only at hj
    split at hj
    · next entry he =>
      rcases List.mem_append.mp hj with hj | hj
      · apply hkept.mem_records
        rw [records, records?, he]
        exact hj
      · rw [List.mem_singleton.mp hj]
        exact hown
    · rw [List.mem_singleton.mp hj]
      exact hown
  · exact hkept m hm j hj

/-- What an event reports is saved under its key, if anything is saved. -/
theorem save (h : s.From events) (mode : StoreMode) (now : Nat) (event : Event) :
    (s.save mode now event.cacheKey event.ruleResult).1.From (events ++ [event]) := by
  have hsame : s.From (events ++ [event]) := h.mono (List.subset_append_left _ _)
  simp only [Store.save_eq_appendAndList]
  unfold appendAndList
  cases mode.append with
  | works => exact h.append now event
  | answersNothing => exact hsame
  | fails error => exact hsame

end From

private theorem mem_of_decodeAll {records : List Json} {results : List RuleResult}
    (h : decodeAll records = .ok results) {r : RuleResult} (hr : r ∈ results) :
    ∃ j ∈ records, StoredResult.read (Draft.ofJson j) = .ok ⟨r⟩ := by
  induction records generalizing results with
  | nil =>
    cases h
    cases hr
  | cons j rest ih =>
    obtain ⟨first, tail, hj, hd, rfl⟩ := decodeAll_cons_eq_ok.mp h
    rcases List.mem_cons.mp hr with rfl | hr
    · exact ⟨j, List.mem_cons_self, hj⟩
    · obtain ⟨k, hk, hread⟩ := ih hd hr
      exact ⟨k, List.mem_cons_of_mem _ hk, hread⟩

/-- The rule results stored under a key are what events have reported under it, as it is kept. -/
theorem From.mem_results {s : Store} {events : List Event} (h : s.From events) {key : String}
    {r : RuleResult} (hr : r ∈ s.results key) :
    ∃ e ∈ events, e.cacheKey = key ∧ r = e.ruleResult.kept := by
  rw [results] at hr
  split at hr
  · next results hd =>
    obtain ⟨j, hj, hread⟩ := mem_of_decodeAll hd hr
    obtain ⟨e, he, hkey, rfl⟩ := h.mem_records hj
    rw [StoredResult.read_toJson] at hread
    cases hread
    exact ⟨e, he, hkey, rfl⟩
  · cases hr

end RiskTypology.Store
