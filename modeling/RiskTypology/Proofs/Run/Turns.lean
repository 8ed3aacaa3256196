import Mathlib.Data.List.Forall2
import Mathlib.Data.List.Induction
import RiskTypology.Proofs.Pass.Completion
import RiskTypology.Proofs.Pass.HandOver

/-!
# Runs

A run, turn by turn. While the store appends and every event belongs to one transaction, a turn
finds what has been reported since the entry was made and nothing else. If the store deletes as well
and every event reports a rule of one map, a turn cleans up exactly when every rule of the map has
been reported.
-/

namespace RiskTypology

/-- One turn of a run: an event, the services of its time, and the store it finds. -/
structure Turn where
  services : Services
  event : Event
  before : Store

namespace Turn

/-- What the turn does. -/
def pass (t : Turn) : Pass := Pass.run t.services t.before t.event

/-- What is stored under the event's key once its rule result has been appended. -/
def results (t : Turn) : List RuleResult := Pass.gathered t.services t.before t.event

/-- The id of the rule the event reports. -/
def ruleId (t : Turn) : String := t.event.ruleResult.id

/-- Whether all of some rule ids are stored once the event's rule result has been appended. -/
def stores (t : Turn) (ids : List String) : Bool := RuleResult.haveAll t.results ids

end Turn

/-- The turns of a run from a store. -/
def turns : Store → List (Services × Event) → List Turn
  | _, [] => []
  | store, (services, event) :: rest =>
    let turn : Turn := ⟨services, event, store⟩
    turn :: turns turn.pass.store rest

/-- What the turns of a run do are its passes. -/
theorem map_pass_turns (store : Store) (inputs : List (Services × Event)) :
    (turns store inputs).map Turn.pass = Pass.runAll store inputs := by
  induction inputs generalizing store with
  | nil => rfl
  | cons input rest ih =>
    rw [turns, Pass.runAll_cons, List.map_cons, ih]
    rfl

/-- A run has one turn for each of its events, with the services of its time. -/
theorem map_input_turns (store : Store) (inputs : List (Services × Event)) :
    ((turns store inputs).map fun t ↦ (t.services, t.event)) = inputs := by
  induction inputs generalizing store with
  | nil => rfl
  | cons input rest ih => simp only [turns, List.map_cons, ih]

section

variable {store : Store} {inputs : List (Services × Event)} {earlier later : List Turn}
  {here next : Turn}

/-- Every turn takes one of the events of the run. -/
theorem mem_inputs (h : here ∈ turns store inputs) : (here.services, here.event) ∈ inputs := by
  rw [← map_input_turns store inputs]
  exact List.mem_map_of_mem h

/-- A turn between others is a turn of the run. -/
theorem mem_turns (h : turns store inputs = earlier ++ here :: later) :
    here ∈ turns store inputs := by
  rw [h]
  simp

/-- From any turn on a run is the run of the remaining events from the store that turn finds. -/
theorem turns_from (h : turns store inputs = earlier ++ here :: later) :
    turns here.before (inputs.drop earlier.length) = here :: later := by
  induction earlier generalizing store inputs with
  | nil =>
    cases inputs with
    | nil => cases h
    | cons input rest =>
      rw [List.nil_append] at h
      obtain ⟨rfl, -⟩ := List.cons.inj h
      exact h
  | cons first earlier ih =>
    cases inputs with
    | nil => cases h
    | cons input rest =>
      obtain ⟨-, h⟩ := List.cons.inj h
      exact ih h

/-- The first turn finds the store of the start. -/
theorem before_first (h : turns store inputs = here :: later) : here.before = store := by
  cases inputs with
  | nil => cases h
  | cons input rest =>
    obtain ⟨rfl, -⟩ := List.cons.inj h
    rfl

/-- Every further turn finds the store that the turn before it leaves. -/
theorem before_next (h : turns store inputs = earlier ++ here :: next :: later) :
    next.before = here.pass.store := by
  have hf := turns_from h
  cases hd : inputs.drop earlier.length with
  | nil =>
    rw [hd] at hf
    cases hf
  | cons input rest =>
    rw [hd] at hf
    obtain ⟨hh, hf⟩ := List.cons.inj hf
    rw [hh] at hf
    exact before_first hf

end

/-- Two runs correspond turn by turn if passes of corresponding inputs on corresponding stores
correspond and leave corresponding stores. -/
theorem forall₂_turns {inputsAlike : Services × Event → Services × Event → Prop}
    (storesAlike : Store → Store → Prop) (passesAlike : Pass → Pass → Prop)
    (step : ∀ input input' store store', inputsAlike input input' → storesAlike store store' →
      let pass := Pass.run input.1 store input.2
      let pass' := Pass.run input'.1 store' input'.2
      passesAlike pass pass' ∧ storesAlike pass.store pass'.store)
    {store store' : Store} (hs : storesAlike store store')
    {inputs inputs' : List (Services × Event)} (h : List.Forall₂ inputsAlike inputs inputs') :
    List.Forall₂ (fun t t' ↦ passesAlike t.pass t'.pass) (turns store inputs)
      (turns store' inputs') := by
  induction h generalizing store store' with
  | nil => exact .nil
  | cons hi _ ih =>
    obtain ⟨hpasses, hstores⟩ := step _ _ _ _ hi hs
    exact .cons hpasses (ih hstores)

/-- A run that gathers for one transaction: every event belongs to it, the store appends and has no
time to live, and nothing is stored for the transaction at the start. -/
structure Gathering (messageId : String) (store : Store) (inputs : List (Services × Event)) :
    Prop where
  ttl : store.ttl = none
  fresh : store.contains (Transaction.cacheKeyOf messageId) = false
  appends : ∀ input ∈ inputs, input.1.store.append = .works
  messageId_eq : ∀ input ∈ inputs, input.2.transaction.messageId = messageId

namespace Gathering

variable {messageId : String} {store : Store} {inputs : List (Services × Event)}
  (hg : Gathering messageId store inputs)

section Turn

variable {t : Turn} (ht : t ∈ turns store inputs)

include hg ht in
/-- Every turn gathers under the transaction's key. -/
theorem cacheKey_eq : t.event.cacheKey = Transaction.cacheKeyOf messageId := by
  rw [Event.cacheKey, Transaction.cacheKey, hg.messageId_eq _ (mem_inputs ht)]

variable {log : List RuleResult}
  (hl : t.before.Holds (Transaction.cacheKeyOf messageId) log)

include hg ht hl in
/-- A turn gathers what is held, the event's rule result last. -/
theorem results_of_holds : t.results = log ++ [t.event.ruleResult.kept] := by
  rw [Turn.results, Pass.gathered, hg.cacheKey_eq ht, hl.save_eq (hg.appends _ (mem_inputs ht))]
  exact (hl.append _ _).results_eq

include hg ht hl in
/-- A turn finishes its pass with what it gathers. -/
theorem pass_of_holds :
    t.pass = Pass.finish t.services
      (t.before.append t.services.now (Transaction.cacheKeyOf messageId)
        (StoredResult.toJson ⟨t.event.ruleResult⟩)) t.event t.results := by
  rw [hg.results_of_holds ht hl, Turn.pass, Pass.run_eq, hg.cacheKey_eq ht,
    hl.save_eq (hg.appends _ (mem_inputs ht))]

include hg ht hl in
/-- A turn that cleans up leaves nothing for the transaction. -/
theorem holds_of_cleanedUp (hc : t.pass.outcome.cleanedUp = true) :
    t.pass.store.Holds (Transaction.cacheKeyOf messageId) [] := by
  rw [hg.pass_of_holds ht hl] at hc ⊢
  rw [Pass.store_finish_of_cleanedUp _ _ _ _ hc, hg.cacheKey_eq ht]
  exact Store.holds_delete (hl.append _ _).ttl _

include hg ht hl in
/-- A turn that does not clean up leaves what it gathers. -/
theorem holds_of_not_cleanedUp (hc : t.pass.outcome.cleanedUp = false) :
    t.pass.store.Holds (Transaction.cacheKeyOf messageId) t.results := by
  rw [hg.pass_of_holds ht hl] at hc ⊢
  rw [Pass.store_finish_of_not_cleanedUp _ _ _ _ hc, hg.results_of_holds ht hl]
  exact hl.append _ _

end Turn

section Run

variable {earlier past since later : List Turn} {here : Turn}

include hg in
/-- Every turn finds rule results for the transaction and nothing else. What all reported rule
results have in common, those that are found have. -/
theorem holds_before {p : RuleResult → Prop}
    (hp : ∀ t ∈ turns store inputs, p t.event.ruleResult.kept)
    (h : turns store inputs = earlier ++ here :: later) :
    ∃ log, here.before.Holds (Transaction.cacheKeyOf messageId) log ∧ ∀ r ∈ log, p r := by
  -- By the last of the turns before: cleaning up leaves nothing, or else its rule result is added.
  induction earlier using List.reverseRecOn generalizing here later with
  | nil =>
    rw [before_first h]
    exact ⟨[], Store.holds_nil hg.ttl hg.fresh, by simp⟩
  | append_singleton earlier t ih =>
    rw [List.append_assoc, List.singleton_append] at h
    have ht := mem_turns h
    obtain ⟨log, hl, hlog⟩ := ih h
    rw [before_next h]
    cases hc : t.pass.outcome.cleanedUp with
    | true => exact ⟨[], hg.holds_of_cleanedUp ht hl hc, by simp⟩
    | false =>
      refine ⟨t.results, hg.holds_of_not_cleanedUp ht hl hc, ?_⟩
      rw [hg.results_of_holds ht hl, List.forall_mem_append, List.forall_mem_singleton]
      exact ⟨hlog, hp t ht⟩

include hg in
/-- Every turn finds rule results for the transaction and nothing else. -/
theorem exists_holds (h : turns store inputs = earlier ++ here :: later) :
    ∃ log, here.before.Holds (Transaction.cacheKeyOf messageId) log := by
  obtain ⟨log, hl, -⟩ := hg.holds_before (p := fun _ ↦ True) (fun _ _ ↦ trivial) h
  exact ⟨log, hl⟩

include hg in
/-- No turn is aborted: it has the counts of what it gathers. -/
theorem counts_turn (h : turns store inputs = earlier ++ here :: later) :
    here.pass.outcome.counts = some (Pass.counts here.event here.results) := by
  obtain ⟨log, hl⟩ := hg.exists_holds h
  rw [hg.pass_of_holds (mem_turns h) hl]
  rfl

include hg in
/-- A turn cleans up exactly when its counts are complete and the store deletes. -/
theorem cleanedUp_turn_iff (h : turns store inputs = earlier ++ here :: later) :
    here.pass.outcome.cleanedUp = true ↔
      (Pass.counts here.event here.results).isComplete = true ∧
        here.services.store.deleteError = none := by
  obtain ⟨log, hl⟩ := hg.exists_holds h
  rw [hg.pass_of_holds (mem_turns h) hl, Pass.cleanedUp_finish]

include hg in
/-- After a turn that cleans up there is no entry for the transaction. -/
theorem contains_of_cleanedUp (h : turns store inputs = earlier ++ here :: later)
    (hc : here.pass.outcome.cleanedUp = true) :
    here.pass.store.contains (Transaction.cacheKeyOf messageId) = false := by
  obtain ⟨log, hl⟩ := hg.exists_holds h
  exact (hg.holds_of_cleanedUp (mem_turns h) hl hc).contains

include hg in
/-- A turn gathers what the one before has gathered and its own rule result, if that one has not
cleaned up. -/
theorem results_next {next : Turn} (h : turns store inputs = earlier ++ here :: next :: later)
    (hc : here.pass.outcome.cleanedUp = false) :
    next.results = here.results ++ [next.event.ruleResult.kept] := by
  obtain ⟨log, hl⟩ := hg.exists_holds h
  have hk := hg.holds_of_not_cleanedUp (mem_turns h) hl hc
  rw [← before_next h] at hk
  have hn : next ∈ turns store inputs := by
    rw [h]
    simp
  exact hg.results_of_holds hn hk

include hg in
/-- What a turn gathers continues what a turn before it has gathered, if none has cleaned up from
that one on. -/
theorem results_prefix {between : List Turn} {there : Turn}
    (h : turns store inputs = earlier ++ here :: (between ++ there :: later))
    (hkeeps : ∀ t ∈ here :: between, t.pass.outcome.cleanedUp = false) :
    here.results <+: there.results := by
  induction between using List.reverseRecOn generalizing there later with
  | nil => exact ⟨_, (hg.results_next h (hkeeps here List.mem_cons_self)).symm⟩
  | append_singleton between t ih =>
    rw [List.append_assoc, List.singleton_append] at h
    have hprefix := ih h fun u hu ↦ hkeeps u (by
      rw [← List.cons_append]
      exact List.mem_append_left _ hu)
    rw [← List.cons_append, ← List.append_assoc] at h
    rw [hg.results_next h (hkeeps t (by simp))]
    exact hprefix.trans (List.prefix_append _ _)

include hg in
private theorem holds_since (h : turns store inputs = past ++ (since ++ here :: later))
    (hfirst : ∀ t ∈ (since ++ [here]).head?,
      t.before.contains (Transaction.cacheKeyOf messageId) = false)
    (hkeeps : ∀ t ∈ since, t.pass.outcome.cleanedUp = false) :
    here.before.Holds (Transaction.cacheKeyOf messageId)
      (since.map (·.event.ruleResult.kept)) := by
  induction since using List.reverseRecOn generalizing here later with
  | nil =>
    obtain ⟨log, hl⟩ := hg.exists_holds h
    exact Store.holds_nil hl.ttl (hfirst here rfl)
  | append_singleton since t ih =>
    rw [List.append_assoc, List.singleton_append] at h
    have hl := ih h (by simpa [List.head?_append] using hfirst)
      fun u hu ↦ hkeeps u (List.mem_append_left _ hu)
    rw [← List.append_assoc] at h
    have ht := mem_turns h
    have hk := hg.holds_of_not_cleanedUp ht hl (hkeeps t (by simp))
    rw [before_next h, List.map_append, List.map_singleton, ← hg.results_of_holds ht hl]
    exact hk

include hg in
/-- A turn gathers what has been reported since a turn that found no entry, if none has cleaned up
since. -/
theorem results_since (h : turns store inputs = past ++ (since ++ here :: later))
    (hfirst : ∀ t ∈ (since ++ [here]).head?,
      t.before.contains (Transaction.cacheKeyOf messageId) = false)
    (hkeeps : ∀ t ∈ since, t.pass.outcome.cleanedUp = false) :
    here.results = (since ++ [here]).map (·.event.ruleResult.kept) := by
  have ht : here ∈ turns store inputs := by
    rw [h]
    simp
  rw [hg.results_of_holds ht (hg.holds_since h hfirst hkeeps), List.map_append,
    List.map_singleton]

end Run

end Gathering

/-- A run of reports: every event reports a rule of one map for one transaction, the store works
and has no time to live, and nothing is stored for the transaction at the start. -/
structure Reporting (map : NetworkMap) (messageId : String) (store : Store)
    (inputs : List (Services × Event)) : Prop where
  ttl : store.ttl = none
  fresh : store.contains (Transaction.cacheKeyOf messageId) = false
  appends : ∀ input ∈ inputs, input.1.store.append = .works
  deletes : ∀ input ∈ inputs, input.1.store.deleteError = none
  map_eq : ∀ input ∈ inputs, input.2.networkMap = map
  messageId_eq : ∀ input ∈ inputs, input.2.transaction.messageId = messageId
  listed : ∀ input ∈ inputs, map.Lists input.2.ruleResult.id input.2.ruleResult.cfg

namespace Reporting

variable {map : NetworkMap} {messageId : String} {store : Store}
  {inputs : List (Services × Event)} (hr : Reporting map messageId store inputs)
  {earlier past since later : List Turn} {here t : Turn}

include hr

/-- A run of reports gathers for its transaction. -/
theorem gathering : Gathering messageId store inputs :=
  ⟨hr.ttl, hr.fresh, hr.appends, hr.messageId_eq⟩

/-- Every turn reports a rule id the map waits for. -/
theorem ruleId_mem (ht : t ∈ turns store inputs) : t.ruleId ∈ map.allRuleIds := by
  obtain ⟨typology, hm, rule, hrule, hid, -⟩ := hr.listed _ (mem_inputs ht)
  exact map.mem_allRuleIds.mpr ⟨typology, hm, rule, hrule, hid⟩

/-- A turn gathers rule results that the map waits for. -/
theorem ids_results (h : turns store inputs = earlier ++ here :: later) :
    ∀ r ∈ here.results, r.id ∈ map.allRuleIds := by
  have ht := mem_turns h
  obtain ⟨log, hl, hids⟩ :=
    hr.gathering.holds_before (p := (·.id ∈ map.allRuleIds)) (fun _ hu ↦ hr.ruleId_mem hu) h
  rw [hr.gathering.results_of_holds ht hl, List.forall_mem_append, List.forall_mem_singleton]
  exact ⟨hids, hr.ruleId_mem ht⟩

/-- No turn is aborted. -/
theorem isAborted_turn (h : turns store inputs = earlier ++ here :: later) :
    here.pass.outcome.isAborted = false := by
  rw [Outcome.isAborted, hr.gathering.counts_turn h, Option.isNone_some]

/-- A turn cleans up exactly when every rule id of the map is stored. -/
theorem cleanedUp_turn (h : turns store inputs = earlier ++ here :: later) :
    here.pass.outcome.cleanedUp = here.stores map.allRuleIds := by
  have ht := mem_turns h
  have hm : here.event.networkMap = map := hr.map_eq _ (mem_inputs ht)
  have hs : ∀ r ∈ here.results, r.id ∈ here.event.networkMap.allRuleIds := by
    rw [hm]
    exact hr.ids_results h
  rw [Turn.stores, ← hm, ← Pass.isComplete_counts_of_no_stray hs]
  exact Pass.cleanedUp_run (hr.isAborted_turn h) (hr.deletes _ (mem_inputs ht))

/-- After a turn that cleans up there is no entry for the transaction. -/
theorem contains_of_cleanedUp (h : turns store inputs = earlier ++ here :: later)
    (hc : here.pass.outcome.cleanedUp = true) :
    here.pass.store.contains (Transaction.cacheKeyOf messageId) = false :=
  hr.gathering.contains_of_cleanedUp h hc

/-- A turn hands over the typologies that wait for the reported rule and have all their results. -/
theorem mem_handedOver_turn (h : turns store inputs = earlier ++ here :: later)
    {key : String × String} :
    key ∈ here.pass.handedOver ↔
      map.WaitsFor key here.ruleId here.event.ruleResult.cfg ∧
        here.stores (map.requiredRuleIds key.1 key.2) = true := by
  rw [← hr.map_eq _ (mem_inputs (mem_turns h))]
  exact Pass.mem_handedOver (hr.isAborted_turn h)

/-- A turn gathers what has been reported since a turn that found no entry, if none has cleaned up
since. -/
theorem results_since (h : turns store inputs = past ++ (since ++ here :: later))
    (hfirst : ∀ t ∈ (since ++ [here]).head?,
      t.before.contains (Transaction.cacheKeyOf messageId) = false)
    (hkeeps : ∀ t ∈ since, t.pass.outcome.cleanedUp = false) :
    here.results = (since ++ [here]).map (·.event.ruleResult.kept) :=
  hr.gathering.results_since h hfirst hkeeps

end Reporting
end RiskTypology
