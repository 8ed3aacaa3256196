import RiskTypology.Proofs.Accumulator.Record

/-!
# The log of a key

What is stored under a key, as rule results. A working store without a time to live keeps it as a
log: a saved rule result comes last, and removing the key leaves nothing.
-/

namespace RiskTypology.Store

/-- The rule results stored under a key; none where some record cannot be read. -/
def results (s : Store) (key : String) : List RuleResult :=
  match decodeAll (s.records key) with
  | .ok results => results
  | .error _ => []

/-- Records are read if the first and the others are. -/
theorem decodeAll_cons_eq_ok {j : Json} {rest : List Json} {results : List RuleResult} :
    decodeAll (j :: rest) = .ok results ↔
      ∃ r tail, StoredResult.read (Draft.ofJson j) = .ok ⟨r⟩ ∧ decodeAll rest = .ok tail ∧
        results = r :: tail := by
  rw [decodeAll]
  constructor
  · intro h
    cases hj : StoredResult.read (Draft.ofJson j) with
    | error fault =>
      rw [hj] at h
      cases h
    | ok stored =>
      cases hd : decodeAll rest with
      | error fault =>
        rw [hj, hd] at h
        cases h
      | ok tail =>
        rw [hj, hd] at h
        cases h
        exact ⟨_, _, rfl, rfl, rfl⟩
  · rintro ⟨r, tail, hj, hd, rfl⟩
    rw [hj, hd]
    rfl

private theorem decodeAll_concat {records : List Json} {log : List RuleResult}
    (h : decodeAll records = .ok log) (r : RuleResult) :
    decodeAll (records ++ [StoredResult.toJson ⟨r⟩]) = .ok (log ++ [r.kept]) := by
  induction records generalizing log with
  | nil =>
    cases h
    exact decodeAll_cons_eq_ok.mpr ⟨r.kept, [], StoredResult.read_toJson r, rfl, rfl⟩
  | cons j rest ih =>
    obtain ⟨first, tail, hj, hd, rfl⟩ := decodeAll_cons_eq_ok.mp h
    exact decodeAll_cons_eq_ok.mpr ⟨first, tail ++ [r.kept], hj, ih hd, rfl⟩

/-- What a save that succeeds answers is what is stored afterwards. -/
theorem results_of_save {mode : StoreMode} {s after : Store} {now : Nat} {key : String}
    {r : RuleResult} {gathered : List RuleResult}
    (h : s.save mode now key r = (after, .ok (some gathered))) : after.results key = gathered := by
  rw [save_eq_appendAndList] at h
  unfold appendAndList at h
  cases hm : mode.append with
  | answersNothing =>
    rw [hm] at h
    cases h
  | fails error =>
    rw [hm] at h
    cases h
  | works =>
    simp only [hm] at h
    obtain ⟨rfl, h⟩ := Prod.mk.inj h
    rw [results]
    cases hd : decodeAll ((s.append now key (StoredResult.toJson ⟨r⟩)).records key) with
    | error fault =>
      rw [hd] at h
      cases h
    | ok stored =>
      rw [hd] at h
      cases h
      rfl

/-- Appending keeps the time to live. -/
theorem ttl_append (s : Store) (now : Nat) (key : String) (record : Json) :
    (s.append now key record).ttl = s.ttl := by
  simp only [append, evict]
  split <;> rfl

/-- An appended record makes an entry, if there was none. -/
theorem contains_append_self {s : Store} (h : s.ttl = none) (now : Nat) (key : String)
    (record : Json) : (s.append now key record).contains key = true := by
  rw [contains, get?_append_self h, Option.isSome_some]

/-- A store without a time to live that holds exactly some rule results under a key, and an entry
only if there are any. -/
structure Holds (s : Store) (key : String) (log : List RuleResult) : Prop where
  ttl : s.ttl = none
  decoded : decodeAll (s.records key) = .ok log
  contains : s.contains key = !log.isEmpty

/-- Without an entry nothing is held. -/
theorem holds_nil {s : Store} {key : String} (ht : s.ttl = none) (hc : s.contains key = false) :
    s.Holds key [] := by
  refine ⟨ht, ?_, hc⟩
  rw [Store.contains, Option.isSome_eq_false_iff, Option.isNone_iff_eq_none] at hc
  rw [records, records?, hc]
  rfl

variable {s : Store} {key : String} {log : List RuleResult}

/-- What is held is what is stored. -/
theorem Holds.results_eq (h : s.Holds key log) : s.results key = log := by
  rw [results, h.decoded]

/-- A saved rule result comes last, as it is kept. -/
theorem Holds.append (h : s.Holds key log) (now : Nat) (r : RuleResult) :
    (s.append now key (StoredResult.toJson ⟨r⟩)).Holds key (log ++ [r.kept]) where
  ttl := (ttl_append _ _ _ _).trans h.ttl
  decoded := by rw [records_append_self h.ttl, decodeAll_concat h.decoded]
  contains := by rw [contains_append_self h.ttl]; simp

/-- A save answers with everything held, the saved rule result last. -/
theorem Holds.save_eq (h : s.Holds key log) {mode : StoreMode} (hm : mode.append = .works)
    (now : Nat) (r : RuleResult) :
    s.save mode now key r =
      (s.append now key (StoredResult.toJson ⟨r⟩), .ok (some (log ++ [r.kept]))) := by
  simp only [save_eq_appendAndList]
  unfold appendAndList
  simp only [hm, (h.append now r).decoded]

/-- A deleted key holds nothing. -/
theorem holds_delete (ht : s.ttl = none) (key : String) : (s.delete key).Holds key [] :=
  holds_nil ht (by rw [Store.contains, get?_delete_self, Option.isSome_none])

end RiskTypology.Store
