import Mathlib.Data.List.Induction
import RiskTypology.Proofs.Accumulator.Log

/-!
# Calls

What a working store answers to calls that save rule results and remove keys, in any order and over
any keys. Without a time to live a save answers with everything saved under its key since the key
was last removed, in order and with every field; if nothing lives any time it answers with its own
rule result alone.
-/

namespace RiskTypology

/-- The weight of a rule result, if it has one, is finite. -/
def RuleResult.FiniteWeight (r : RuleResult) : Prop := ∀ w ∈ r.weight, w.isFinite = true

/-- A rule result with a finite weight is kept as it is. -/
theorem RuleResult.kept_of_finiteWeight {r : RuleResult} (h : r.FiniteWeight) : r.kept = r := by
  have hw : r.weight.filter Float.isFinite = r.weight := by
    cases hr : r.weight with
    | none => rfl
    | some w => exact Option.filter_some_pos (h w hr)
  rw [kept, hw]

/-- A call that changes a store. -/
inductive StoreCall where
  | save (key : String) (r : RuleResult)
  | remove (key : String)

namespace StoreCall

/-- The rule result a call saves under a key. -/
def saved? (key : String) : StoreCall → Option RuleResult
  | .save k r => if k = key then some r else none
  | .remove _ => none

/-- Whether a call removes a key. -/
def removes (key : String) : StoreCall → Bool
  | .save _ _ => false
  | .remove k => k == key

/-- What calls have saved under a key since the last of them that removes it, in order. -/
def sinceRemoval (key : String) (calls : List StoreCall) : List RuleResult :=
  ((calls.reverse.takeWhile fun c ↦ !c.removes key).reverse).filterMap (saved? key)

/-- What a call saves has a finite weight, if it has one. -/
def FiniteWeight : StoreCall → Prop
  | .save _ r => r.FiniteWeight
  | .remove _ => True

variable (key : String) (calls : List StoreCall)

/-- A call that removes the key leaves nothing saved. -/
theorem sinceRemoval_concat_of_removes {c : StoreCall} (h : c.removes key = true) :
    sinceRemoval key (calls ++ [c]) = [] := by
  simp [sinceRemoval, h]

/-- A call that does not remove the key adds what it saves under it. -/
theorem sinceRemoval_concat_of_not_removes {c : StoreCall} (h : c.removes key = false) :
    sinceRemoval key (calls ++ [c]) = sinceRemoval key calls ++ (c.saved? key).toList := by
  rw [sinceRemoval, List.reverse_concat, List.takeWhile_cons_of_pos (by simp [h]),
    List.reverse_cons, List.filterMap_append, sinceRemoval]
  cases hs : c.saved? key <;> simp [hs]

/-- What is saved since the last removal is saved by some call. -/
theorem save_mem_of_mem_sinceRemoval {r : RuleResult} (h : r ∈ sinceRemoval key calls) :
    .save key r ∈ calls := by
  obtain ⟨c, hc, hs⟩ := List.mem_filterMap.mp h
  have hm : c ∈ calls := by
    rw [← List.mem_reverse]
    exact (List.takeWhile_sublist _).subset (List.mem_reverse.mp hc)
  cases c with
  | save k saved =>
    rw [saved?] at hs
    split at hs
    · next hk =>
      cases hs
      rwa [← hk]
    · cases hs
  | remove k => cases hs

/-- What is saved since the last removal is kept as it is if all weights are finite. -/
theorem map_kept_sinceRemoval (hf : ∀ c ∈ calls, c.FiniteWeight) :
    (sinceRemoval key calls).map RuleResult.kept = sinceRemoval key calls := by
  refine (List.map_congr_left fun r hr ↦ ?_).trans (List.map_id _)
  exact RuleResult.kept_of_finiteWeight (hf _ (save_mem_of_mem_sinceRemoval key calls hr))

end StoreCall

namespace Store

/-- The store after a call at some time, while it works. -/
def afterCall (s : Store) (now : Nat) : StoreCall → Store
  | .save key r => (s.save {} now key r).1
  | .remove key => (s.remove {} key).1

/-- The store after calls, each at its time, while it works. -/
def afterCalls (s : Store) (calls : List (Nat × StoreCall)) : Store :=
  calls.foldl (fun s call ↦ s.afterCall call.1 call.2) s

variable {s : Store} {key : String} {log : List RuleResult}

/-- A working store appends what it saves. -/
theorem afterCall_save (s : Store) (now : Nat) (key : String) (r : RuleResult) :
    s.afterCall now (.save key r) = s.append now key (StoredResult.toJson ⟨r⟩) := rfl

/-- A working store deletes the key a call removes. -/
theorem afterCall_remove (s : Store) (now : Nat) (key : String) :
    s.afterCall now (.remove key) = s.delete key := rfl

/-- A working store deletes what it removes. -/
theorem remove_eq (s : Store) (key : String) : s.remove {} key = (s.delete key, .ok ()) := rfl

/-- The last of several calls finds the store after the others. -/
theorem afterCalls_concat (s : Store) (calls : List (Nat × StoreCall)) (call : Nat × StoreCall) :
    s.afterCalls (calls ++ [call]) = (s.afterCalls calls).afterCall call.1 call.2 := by
  simp [afterCalls]

/-- Calls keep the time to live. -/
theorem ttl_afterCalls (s : Store) (calls : List (Nat × StoreCall)) :
    (s.afterCalls calls).ttl = s.ttl := by
  induction calls generalizing s with
  | nil => rfl
  | cons call rest ih =>
    obtain ⟨now, c⟩ := call
    refine (ih _).trans ?_
    cases c with
    | save key r => exact ttl_append _ _ _ _
    | remove key => rfl

/-- What is held under a key depends on its entry only. -/
theorem Holds.of_get?_eq {after : Store} (h : s.Holds key log) (ht : after.ttl = none)
    (hg : after.get? key = s.get? key) : after.Holds key log where
  ttl := ht
  decoded := by
    rw [records, records?, hg]
    exact h.decoded
  contains := by
    rw [Store.contains, hg]
    exact h.contains

/-- A call that does not remove a key adds what it saves under it, as it is kept. -/
theorem Holds.afterCall (h : s.Holds key log) (now : Nat) {c : StoreCall}
    (hc : c.removes key = false) :
    (s.afterCall now c).Holds key (log ++ ((c.saved? key).map RuleResult.kept).toList) := by
  cases c with
  | save k r =>
    rw [afterCall_save]
    by_cases hk : k = key
    · subst hk
      simpa [StoreCall.saved?] using h.append now r
    · have hg := get?_append_of_ne h.ttl now (StoredResult.toJson ⟨r⟩) (Ne.symm hk)
      simpa [StoreCall.saved?, hk] using h.of_get?_eq ((ttl_append _ _ _ _).trans h.ttl) hg
  | remove k =>
    have hk : key ≠ k := fun he ↦ by simp [StoreCall.removes, he] at hc
    have hd : (s.delete k).Holds key log := h.of_get?_eq h.ttl (get?_delete_of_ne s hk)
    rw [afterCall_remove]
    simpa [StoreCall.saved?] using hd

/-- A store without a time to live holds under every key what has been saved there since the key
was last removed, as it is kept. -/
theorem holds_afterCalls (calls : List (Nat × StoreCall)) (key : String) :
    (afterCalls {} calls).Holds key
      ((StoreCall.sinceRemoval key (calls.map Prod.snd)).map RuleResult.kept) := by
  induction calls using List.reverseRecOn with
  | nil => exact holds_nil rfl rfl
  | append_singleton calls call ih =>
    rw [afterCalls_concat, List.map_append, List.map_singleton]
    cases hc : call.2.removes key with
    | true =>
      rw [StoreCall.sinceRemoval_concat_of_removes _ _ hc]
      obtain ⟨now, _ | k⟩ := call
      · cases hc
      · rw [← beq_iff_eq.mp hc]
        exact holds_delete ih.ttl k
    | false =>
      rw [StoreCall.sinceRemoval_concat_of_not_removes _ _ hc, List.map_append,
        ← Option.toList_map]
      exact ih.afterCall _ hc

/-- If nothing lives any time, an append leaves its own record and nothing else. -/
theorem append_of_ttl_zero (h : s.ttl = some 0) (now : Nat) (key : String) (record : Json) :
    s.append now key record = ⟨some 0, [(key, ⟨now, [record]⟩)]⟩ := by
  have he : s.evict now = ⟨some 0, []⟩ := by simp [evict, h]
  rw [append, he]
  rfl

/-- If nothing lives any time, a save answers with its own rule result, as it is kept. -/
theorem save_of_ttl_zero (h : s.ttl = some 0) (now : Nat) (key : String) (r : RuleResult) :
    s.save {} now key r =
      (⟨some 0, [(key, ⟨now, [StoredResult.toJson ⟨r⟩]⟩)]⟩, .ok (some [r.kept])) := by
  have hr : (Store.mk (some 0) [(key, ⟨now, [StoredResult.toJson ⟨r⟩]⟩)]).records key =
      [StoredResult.toJson ⟨r⟩] := by
    simp [records, records?, get?]
  have hd : decodeAll [StoredResult.toJson ⟨r⟩] = .ok [r.kept] := by
    simp only [decodeAll, StoredResult.read_toJson]
    rfl
  simp only [save_eq_appendAndList, appendAndList, append_of_ttl_zero h, hr, hd]

/-- A store that works is a lossless log of each key. Without a time to live a save always succeeds
and answers with the rule results saved under its key since the key was last removed, in order and
as they were, its own one last. Removing a key always succeeds, leaves no entry for it and changes
no other entry. If nothing lives any time a save answers with its own rule result alone, and leaves
no other key. -/
theorem save_answers_since_removal (calls : List (Nat × StoreCall)) (now : Nat) (key : String)
    (hf : ∀ call ∈ calls, call.2.FiniteWeight) :
    (∀ r : RuleResult, r.FiniteWeight →
      ((afterCalls {} calls).save {} now key r).2 =
        .ok (some (StoreCall.sinceRemoval key (calls.map Prod.snd) ++ [r]))) ∧
    (∀ ttl, ∃ after, (afterCalls { ttl := ttl } calls).remove {} key = (after, .ok ()) ∧
      after.get? key = none ∧
      ∀ other ≠ key, after.get? other = (afterCalls { ttl := ttl } calls).get? other) ∧
    (∀ r : RuleResult, r.FiniteWeight →
      ∃ after, (afterCalls { ttl := some 0 } calls).save {} now key r = (after, .ok (some [r])) ∧
        ∀ other, after.contains other = true ↔ other = key) := by
  refine ⟨?_, ?_, ?_⟩
  · intro r hr
    have hk : (StoreCall.sinceRemoval key (calls.map Prod.snd)).map RuleResult.kept =
        StoreCall.sinceRemoval key (calls.map Prod.snd) := by
      apply StoreCall.map_kept_sinceRemoval
      intro c hc
      obtain ⟨call, hm, rfl⟩ := List.mem_map.mp hc
      exact hf call hm
    rw [(holds_afterCalls calls key).save_eq rfl, hk, RuleResult.kept_of_finiteWeight hr]
  · intro ttl
    refine ⟨_, remove_eq _ _, get?_delete_self _ _, ?_⟩
    intro other hne
    exact get?_delete_of_ne _ hne
  · intro r hr
    have httl : (afterCalls { ttl := some 0 } calls).ttl = some 0 := ttl_afterCalls _ _
    refine ⟨_, by rw [save_of_ttl_zero httl, RuleResult.kept_of_finiteWeight hr], ?_⟩
    intro other
    rw [Store.contains, get?, List.lookup_cons]
    by_cases ho : other = key
    · simp [ho]
    · simp [ho, beq_eq_false_iff_ne.mpr ho]

private def someResult : RuleResult := { id := "A", cfg := "1", subRuleRef := ".01" }

private def otherResult : RuleResult :=
  { id := "B", cfg := "1", subRuleRef := ".02", reason := some "late", duration := some 7 }

private def someCalls : List (Nat × StoreCall) :=
  [(0, .save "k" otherResult), (1, .remove "k"), (2, .save "k" someResult),
    (3, .save "l" someResult), (4, .save "k" otherResult), (5, .remove "l")]

/-- Saves under a key before and after its removal, between calls for another key. -/
theorem saved_after_removal :
    (∀ call ∈ someCalls, call.2.FiniteWeight) ∧ someResult.FiniteWeight ∧
      ((afterCalls {} someCalls).save {} 6 "k" someResult).2 =
        .ok (some [someResult, otherResult, someResult]) := by
  have hf : ∀ call ∈ someCalls, call.2.FiniteWeight := by
    simp [someCalls, StoreCall.FiniteWeight, RuleResult.FiniteWeight, someResult, otherResult]
  have hr : someResult.FiniteWeight := by simp [RuleResult.FiniteWeight, someResult]
  refine ⟨hf, hr, ?_⟩
  rw [(save_answers_since_removal someCalls 6 "k" hf).1 someResult hr]
  rfl

end Store
end RiskTypology
