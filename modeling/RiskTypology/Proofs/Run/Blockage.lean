import Mathlib.Data.List.Induction
import RiskTypology.Proofs.Pass.HandOver
import RiskTypology.Proofs.Pass.StoreEffect
import RiskTypology.Proofs.Run.Turns

/-!
# Blocked transactions

A record under a key that is no stored rule result blocks the transaction of that key for good. Its
own passes append before they read, so each of them adds to the entry and is aborted on the record;
the passes of other transactions leave the entry alone. Nothing is left that could delete it.
-/

namespace RiskTypology

/-- A store whose entry of a key has some record that cannot be read. -/
structure Store.Blocked (s : Store) (key : String) (entry : StoreEntry) : Prop where
  ttl : s.ttl = none
  found : s.get? key = some entry
  unreadable : ∃ j ∈ entry.records, StoredResult.isReadable j = false

/-- What a turn adds under a key: its record, if the key is its own and the store appends. -/
def Turn.addedTo (key : String) (t : Turn) : List Json :=
  if t.event.cacheKey = key ∧ t.services.store.append = .works then
    [StoredResult.toJson ⟨t.event.ruleResult⟩]
  else []

namespace Store.Blocked

variable {t : Turn} {key : String} {entry : StoreEntry} (hb : t.before.Blocked key entry)

include hb

/-- The records of a blocked key are those of its entry. -/
theorem records_eq : t.before.records key = entry.records := by
  rw [Store.records, Store.records?, hb.found]
  rfl

/-- The two courses of a turn on its own blocked key. -/
theorem pass_cases (hk : t.event.cacheKey = key) :
    ∃ notice,
      (t.services.store.append ≠ .works ∧
        t.pass = ⟨.aborted key, t.before, [.told notice]⟩) ∨
      (t.services.store.append = .works ∧
        t.pass = ⟨.aborted key, Pass.appended t.services t.before t.event, [.told notice]⟩) := by
  subst hk
  obtain ⟨hm, notice, hp⟩ | ⟨hm, -, notice, hp⟩ | ⟨-, hall, -⟩ :=
    Pass.run_cases t.services t.before t.event hb.ttl
  · exact ⟨notice, .inl ⟨hm, hp⟩⟩
  · exact ⟨notice, .inr ⟨hm, hp⟩⟩
  -- The blocking record is among those that are read.
  · obtain ⟨j, hj, hbad⟩ := hb.unreadable
    rw [hb.records_eq] at hall
    exact absurd (hall j (List.mem_append_left _ hj)) (Bool.eq_false_iff.mp hbad)

/-- A turn on its own blocked key is aborted and does nothing else. -/
theorem stopped (hk : t.event.cacheKey = key) : t.pass.Stopped key := by
  obtain ⟨notice, ⟨-, hp⟩ | ⟨-, hp⟩⟩ := hb.pass_cases hk
  · rw [hp]
    exact Pass.stopped_of_told _ _ _
  · rw [hp]
    exact Pass.stopped_of_told _ _ _

/-- No turn sends anything for the transaction of a blocked key. -/
theorem cacheKey_ne_of_sent :
    ∀ s ∈ Effect.sends t.pass.effects, s.payload.transaction.cacheKey ≠ key := by
  intro s hs
  by_cases hk : t.event.cacheKey = key
  · rw [(hb.stopped hk).sends] at hs
    cases hs
  · obtain ha | ha := Bool.eq_false_or_eq_true t.pass.outcome.isAborted
    · rw [Turn.pass, Pass.sends_of_aborted ha] at hs
      cases hs
    -- Both the full and the minimal transaction have the key of the event.
    · obtain hfull | ⟨-, hminimal⟩ := (Pass.carried_run ha s hs).transaction
      · rw [hfull]
        exact hk
      · rw [hminimal]
        exact hk

/-- A turn leaves a blocked key blocked, with what it adds to the entry. -/
theorem pass :
    t.pass.store.Blocked key { entry with records := entry.records ++ t.addedTo key } := by
  obtain ⟨j, hj, hbad⟩ := hb.unreadable
  refine ⟨Pass.ttl_run hb.ttl, ?_, j, List.mem_append_left _ hj, hbad⟩
  by_cases hk : t.event.cacheKey = key
  · obtain ⟨notice, ⟨hm, hp⟩ | ⟨hm, hp⟩⟩ := hb.pass_cases hk
    · rw [hp, Turn.addedTo, if_neg fun hn ↦ hm hn.2, List.append_nil]
      exact hb.found
    · rw [hp, Turn.addedTo, if_pos ⟨hk, hm⟩, ← hk]
      have hext := (Pass.extends_appended t.services t.event hb.ttl).entry
      rw [hk, hb.found, hb.records_eq] at hext
      rw [hk]
      exact hext
  · rw [Turn.addedTo, if_neg fun hn ↦ hk hn.1, List.append_nil, ← hb.found]
    exact Pass.get?_run_of_ne hb.ttl (Ne.symm hk)

end Store.Blocked

/-- Every turn finds a blocked key blocked, with what the turns before it have added. -/
theorem Store.Blocked.before_turn {store : Store} {key : String} {entry : StoreEntry}
    (hb : store.Blocked key entry) {inputs : List (Services × Event)} {earlier later : List Turn}
    {here : Turn} (h : turns store inputs = earlier ++ here :: later) :
    here.before.Blocked key
      { entry with records := entry.records ++ earlier.flatMap (Turn.addedTo key) } := by
  induction earlier using List.reverseRecOn generalizing here later with
  | nil =>
    rw [before_first h, List.flatMap_nil, List.append_nil]
    exact hb
  | append_singleton earlier t ih =>
    rw [List.append_assoc, List.singleton_append] at h
    rw [before_next h, List.flatMap_append, List.flatMap_singleton, ← List.append_assoc]
    exact (ih h).pass

/-- A record that cannot be read blocks the transaction of its key for good, whatever is reported
for whichever transactions and whatever fails. After every turn the entry is there with its records
as they were and after them one more for each turn of the transaction so far that could append.
Every such turn is aborted, and no turn sends anything for the transaction. -/
theorem unreadable_record_blocks {store : Store} {key : String} {entry : StoreEntry}
    (hb : store.Blocked key entry) {inputs : List (Services × Event)} {earlier later : List Turn}
    {here : Turn} (h : turns store inputs = earlier ++ here :: later) :
    here.pass.store.get? key = some
        { entry with records := entry.records ++ (earlier ++ [here]).flatMap (Turn.addedTo key) } ∧
      (here.event.cacheKey = key → here.pass.Stopped key) ∧
      ∀ s ∈ Effect.sends here.pass.effects, s.payload.transaction.cacheKey ≠ key := by
  have hhere := hb.before_turn h
  refine ⟨?_, hhere.stopped, hhere.cacheKey_ne_of_sent⟩
  rw [hhere.pass.found, List.flatMap_append, List.flatMap_singleton, List.append_assoc]

private def soleRule : NetworkMap := .ofTypologies [⟨"T", "1", [⟨"A", "1"⟩]⟩]

private def soleReport (messageId : String) : Event := .ofRule soleRule messageId "A" "1"

private def soleRecord : Json := StoredResult.toJson ⟨(soleReport "m").ruleResult⟩

private def mixedEntry : StoreEntry :=
  ⟨3, [soleRecord, .obj [("unexpected", .bool true)], soleRecord]⟩

private def mixedStore : Store := { entries := [("TP_m", mixedEntry)] }

private def appendsNothing : Services :=
  { Services.plain with store := { append := .fails "connection refused" } }

private def otherTurn : Turn := ⟨Services.plain, soleReport "n", mixedStore⟩

private def failingTurn : Turn := ⟨appendsNothing, soleReport "m", otherTurn.pass.store⟩

private def addingTurn : Turn := ⟨Services.plain, soleReport "m", failingTurn.pass.store⟩

/-- A record that cannot be read between two that can: after a turn of another transaction and one
of its own that cannot append, the next turn of its own adds one record and is aborted although its
rule result completes the map. -/
theorem blocked_between_readable :
    mixedStore.Blocked "TP_m" mixedEntry ∧
      turns mixedStore [(Services.plain, soleReport "n"), (appendsNothing, soleReport "m"),
        (Services.plain, soleReport "m")] = [otherTurn, failingTurn] ++ addingTurn :: [] ∧
      addingTurn.pass.Stopped "TP_m" ∧
      addingTurn.pass.store.get? "TP_m" =
        some ⟨3, mixedEntry.records ++ [StoredResult.toJson ⟨addingTurn.event.ruleResult⟩]⟩ := by
  have hb : mixedStore.Blocked "TP_m" mixedEntry :=
    ⟨rfl, rfl, .obj [("unexpected", .bool true)], by simp [mixedEntry], rfl⟩
  have h : turns mixedStore [(Services.plain, soleReport "n"), (appendsNothing, soleReport "m"),
      (Services.plain, soleReport "m")] = [otherTurn, failingTurn] ++ addingTurn :: [] := rfl
  obtain ⟨hfound, hstopped, -⟩ := unreadable_record_blocks hb h
  exact ⟨hb, h, hstopped rfl, hfound⟩

end RiskTypology
