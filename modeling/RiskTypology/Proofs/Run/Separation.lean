import RiskTypology.Proofs.Accumulator.Agreement
import RiskTypology.Proofs.Routing.Timeless
import RiskTypology.Proofs.Run.Turns

/-!
# Separation of transactions

Transactions do not touch each other. A pass sees of the store only what it holds under its own key
and changes nothing else, so in a run that mixes events of several transactions each transaction
fares as in the run of its own events alone.
-/

namespace RiskTypology

/-- What the services have in common from pass to pass when sends fail by their channels alone. -/
structure Deployment where
  define : String → String → Except String (Option Definition)
  interdictionChannel : String
  /-- The error of a send to some channels, if it fails. -/
  failure : List String → Option String
  store : StoreMode

/-- Services of a deployment; they may differ in the time and in how long evaluations take. -/
structure Deployment.Provides (d : Deployment) (services : Services) : Prop where
  define : services.routes.define = d.define
  interdictionChannel : services.routes.interdictionChannel = d.interdictionChannel
  deliver : ∀ number send, services.routes.deliver number send = d.failure send.channels
  store : services.store = d.store

/-- The outcome without the time the evaluation of its payload took. -/
def Outcome.timeless (o : Outcome) : Outcome := { o with last := o.last.map Payload.timeless }

namespace Pass

/-- What is seen of a pass from the outside, without times: its outcome, and everything it sends,
counts and tells. -/
def observed (p : Pass) : Outcome × List Effect :=
  (p.outcome.timeless, p.effects.map Effect.timeless)

variable {d : Deployment} {services services' : Services} {store store' : Store} {event : Event}

/-- A pass ends the same where the stores agree on its key, and leaves them in agreement. -/
private theorem ending_agree (hs : services.store = services'.store)
    (h : store.Agree event.cacheKey store') (results : List RuleResult) :
    (ending services store event results).2 = (ending services' store' event results).2 ∧
      (ending services store event results).1.Agree event.cacheKey
        (ending services' store' event results).1 := by
  rw [ending_eq, ending_eq]
  split
  · rw [cleanUp_eq, cleanUp_eq, Store.remove_eq_tryDelete, Store.remove_eq_tryDelete, hs]
    cases services'.store.deleteError with
    | none => exact ⟨rfl, h.delete⟩
    | some error => exact ⟨rfl, h⟩
  · exact ⟨rfl, h⟩

/-- A finished pass shows the same where the stores agree on its key, and leaves them in agreement.
-/
private theorem finish_agree (hd : d.Provides services) (hd' : d.Provides services')
    (h : store.Agree event.cacheKey store') (results : List RuleResult) :
    (finish services store event results).observed =
        (finish services' store' event results).observed ∧
      (finish services store event results).store.Agree event.cacheKey
        (finish services' store' event results).store := by
  obtain ⟨he, hst⟩ := ending_agree (hd.store.trans hd'.store.symm) h results
  refine ⟨?_, hst⟩
  obtain ⟨heffects, hlast⟩ := route_timeless (hd.define.trans hd'.define.symm)
    (hd.interdictionChannel.trans hd'.interdictionChannel.symm)
    (fun number number' s s' hs ↦ by rw [hd.deliver, hd'.deliver, hs])
    ⟨event.networkMap, event.transaction, event.metadata⟩ (counts event results)
    (aggregate event.networkMap results event.ruleResult).results
  rw [finish_eq, finish_eq, observed, observed, Outcome.timeless, Outcome.timeless, he]
  simp only [routed, hlast, List.map_append, heffects]

/-- A pass shows the same where the stores agree on its key, and leaves them in agreement. -/
theorem run_agree (hd : d.Provides services) (hd' : d.Provides services')
    (h : store.Agree event.cacheKey store') :
    (run services store event).observed = (run services' store' event).observed ∧
      (run services store event).store.Agree event.cacheKey (run services' store' event).store := by
  obtain ⟨ha, hst⟩ := h.save d.store services.now services'.now event.ruleResult
  rw [run_eq, run_eq, hd.store, hd'.store]
  cases hsave : store.save d.store services.now event.cacheKey event.ruleResult with
  | mk after answer =>
    cases hsave' : store'.save d.store services'.now event.cacheKey event.ruleResult with
    | mk after' answer' =>
      rw [hsave, hsave'] at ha hst
      obtain rfl : answer = answer' := ha
      obtain e | _ | gathered := answer
      · exact ⟨rfl, hst⟩
      · exact ⟨rfl, hst⟩
      · exact finish_agree hd hd' hst gathered

section

variable {key : String} (hne : key ≠ event.cacheKey)

include hne

private theorem ending_agree_other (h : store.Agree key store') (results : List RuleResult) :
    (ending services store event results).1.Agree key store' := by
  obtain ⟨he, -⟩ | ⟨tail, he, -⟩ := ending_cases services store event results
  · rw [he]
    exact h.delete_other hne
  · rw [he]
    exact h

/-- A pass leaves stores in agreement on every key but its own. -/
theorem run_agree_other (h : store.Agree key store') :
    (run services store event).store.Agree key store' := by
  have hst := h.save_other hne services.store services.now event.ruleResult
  rw [run_eq]
  cases hsave : store.save services.store services.now event.cacheKey event.ruleResult with
  | mk after answer =>
    rw [hsave] at hst
    obtain e | _ | gathered := answer
    · exact hst
    · exact hst
    · exact ending_agree_other hne hst gathered

end

end Pass

/-- The store after a run. -/
def storeAfter : Store → List (Services × Event) → Store
  | store, [] => store
  | store, (services, event) :: rest => storeAfter (Pass.run services store event).store rest

/-- In a run that mixes events of any transactions, the passes of one transaction show the same as
in the run of its own events alone, and its records are the same afterwards. It is enough that both
runs start with the same records for the transaction. -/
theorem turns_of_transaction (d : Deployment) (messageId : String) {store alone : Store}
    {inputs own : List (Services × Event)} (hd : ∀ input ∈ inputs, d.Provides input.1)
    (hd' : ∀ input ∈ own, d.Provides input.1)
    (h : store.Agree (Transaction.cacheKeyOf messageId) alone)
    (ho : own.map Prod.snd =
      (inputs.map Prod.snd).filter (·.transaction.messageId == messageId)) :
    (((turns store inputs).filter (·.event.transaction.messageId == messageId)).map
        (·.pass.observed) = (turns alone own).map (·.pass.observed)) ∧
      (storeAfter store inputs).records? (Transaction.cacheKeyOf messageId) =
        (storeAfter alone own).records? (Transaction.cacheKeyOf messageId) := by
  induction inputs generalizing store alone own with
  | nil =>
    rw [List.map_nil, List.filter_nil, List.map_eq_nil_iff] at ho
    rw [ho]
    exact ⟨rfl, h.records?⟩
  | cons input rest ih =>
    obtain ⟨services, event⟩ := input
    obtain ⟨hfirst, hrest⟩ := List.forall_mem_cons.mp hd
    by_cases hm : event.transaction.messageId = messageId
    · have hkey : event.cacheKey = Transaction.cacheKeyOf messageId := by
        rw [Event.cacheKey, Transaction.cacheKey, hm]
      rw [List.map_cons, List.filter_cons_of_pos (by simpa using hm)] at ho
      cases own with
      | nil => cases ho
      | cons first own =>
        obtain ⟨services', event'⟩ := first
        obtain ⟨hfirst', hown⟩ := List.forall_mem_cons.mp hd'
        obtain ⟨he, hevents⟩ := List.cons.inj ho
        obtain rfl : event' = event := he
        rw [← hkey] at h
        obtain ⟨hobserved, hst⟩ := Pass.run_agree hfirst hfirst' h
        rw [hkey] at hst
        obtain ⟨hturns, hafter⟩ := ih hrest hown hst hevents
        refine ⟨?_, hafter⟩
        rw [turns, turns, List.filter_cons_of_pos (by simpa using hm), List.map_cons, List.map_cons]
        exact congrArg₂ List.cons hobserved hturns
    · have hkey : Transaction.cacheKeyOf messageId ≠ event.cacheKey := by
        rw [Event.cacheKey, Transaction.cacheKey, ne_eq, Transaction.cacheKeyOf_inj]
        exact Ne.symm hm
      rw [List.map_cons, List.filter_cons_of_neg (by simpa using hm)] at ho
      rw [turns, List.filter_cons_of_neg (by simpa using hm)]
      exact ih hrest hd' (Pass.run_agree_other hkey h) ho

private def plainDeployment : Deployment := ⟨fun _ _ ↦ .ok none, "cms", fun _ ↦ none, {}⟩

private def plainAt (now : Nat) : Services := { Services.plain with now := now }

private theorem provides_plainAt (now : Nat) : plainDeployment.Provides (plainAt now) :=
  ⟨rfl, rfl, fun _ _ ↦ rfl, rfl⟩

private def pairMap : NetworkMap := .ofTypologies [⟨"T", "1", [⟨"A", "1"⟩, ⟨"B", "1"⟩]⟩]

private def interleaved : List (Services × Event) :=
  [(plainAt 1, .ofRule pairMap "m" "A" "1"), (plainAt 2, .ofRule pairMap "n" "A" "1"),
    (plainAt 3, .ofRule pairMap "m" "B" "1")]

private def separate : List (Services × Event) :=
  [(plainAt 4, .ofRule pairMap "m" "A" "1"), (plainAt 5, .ofRule pairMap "m" "B" "1")]

/-- Two transactions reported by turns: the one whose rules are all reported leaves no records, as
it does alone, and the other is left with its own. -/
theorem separated_interleaved :
    (∀ input ∈ interleaved, plainDeployment.Provides input.1) ∧
      (∀ input ∈ separate, plainDeployment.Provides input.1) ∧
      Store.Agree "TP_m" {} {} ∧
      separate.map Prod.snd =
        (interleaved.map Prod.snd).filter (·.transaction.messageId == "m") ∧
      ((turns {} interleaved).filter (·.event.transaction.messageId == "m")).map
        (·.pass.observed) = (turns {} separate).map (·.pass.observed) ∧
      (storeAfter {} interleaved).records? "TP_m" = none ∧
      (storeAfter {} interleaved).contains "TP_n" = true := by
  have hd : ∀ input ∈ interleaved, plainDeployment.Provides input.1 := by
    simp [interleaved, provides_plainAt]
  have hd' : ∀ input ∈ separate, plainDeployment.Provides input.1 := by
    simp [separate, provides_plainAt]
  have h : Store.Agree "TP_m" {} {} := ⟨rfl, rfl, rfl⟩
  have ho : separate.map Prod.snd =
      (interleaved.map Prod.snd).filter (·.transaction.messageId == "m") := rfl
  obtain ⟨hobserved, hrecords⟩ := turns_of_transaction plainDeployment "m" hd hd' h ho
  refine ⟨hd, hd', h, ho, hobserved, ?_, by decide⟩
  rw [show "TP_m" = Transaction.cacheKeyOf "m" from rfl, hrecords]
  rfl

end RiskTypology
