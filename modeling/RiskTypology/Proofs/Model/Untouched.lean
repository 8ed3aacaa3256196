import RiskTypology.Proofs.Model.Transaction
import RiskTypology.Proofs.Pass.HandOver

/-!
# Untouched transactions

A transaction leaves as it came. Reading it and writing it again changes nothing but the order of
members, at no level, and so everything a pass sends brings either the transaction of the event's
value or its minimal form.
-/

namespace RiskTypology

/-- The transaction of an event is written as the event's value has it. -/
theorem Event.canonical_transaction {v : Json} {e : Event} (hr : read (Draft.ofJson v) = .ok e) :
    ∃ j, shape.field? v "transaction" = some j ∧
      e.transaction.toJson.canonical = j.canonical := by
  obtain ⟨p, hp, hf⟩ := Draft.fields_of_record hr
  simp only [Partial.yields_seq, Partial.yields_map] at hf
  obtain ⟨map, -, ruleResult, -, transaction, htransaction, metadata, -, rfl⟩ := hf
  obtain ⟨j, hj, hread⟩ := hp.required_eq_ok.mp htransaction
  exact ⟨j, hj, Transaction.canonical_toJson hread⟩

/-- The minimal form is nothing but type and message id on the wire. -/
theorem Transaction.toJson_minimal (t : Transaction) :
    t.minimal.toJson = .obj [("TxTp", .str t.txTp),
      ("FIToFIPmtSts", .obj [("GrpHdr", .obj [("MsgId", .str t.messageId)])])] := rfl

/-- Every send of a pass brings its event's transaction or the minimal form of it. -/
theorem Pass.transaction_of_mem_run {services : Services} {store : Store} {event : Event} {s : Send}
    (hs : s ∈ Effect.sends (run services store event).effects) :
    s.payload.transaction = event.transaction ∨
      s.payload.transaction = event.transaction.minimal := by
  cases ha : (run services store event).outcome.isAborted with
  | true =>
    rw [sends_of_aborted ha] at hs
    exact absurd hs List.not_mem_nil
  | false => exact (carried_run ha s hs).transaction.imp_right And.right

/-- Transactions, and the reports and headers in them, are written as they were read, up to the
order of members; metadata too, but for a trace that was null. So a payload that carries the
transaction of an event in full brings it as the event's value has it. Every other payload a pass
sends brings its minimal form, which is nothing but type and message id, has the same key and is its
own minimal form. -/
theorem transactions_untouched :
    (∀ v h, GroupHeader.read (Draft.ofJson v) = .ok h → h.toJson.canonical = v.canonical) ∧
    (∀ v s, PaymentStatus.read (Draft.ofJson v) = .ok s → s.toJson.canonical = v.canonical) ∧
    (∀ v t, Transaction.read (Draft.ofJson v) = .ok t → t.toJson.canonical = v.canonical) ∧
    (∀ v m, Metadata.read (Draft.ofJson v) = .ok m →
      m.toJson.canonical = (v.withoutNull "traceParent").canonical) ∧
    (∀ v e, Event.read (Draft.ofJson v) = .ok e →
      ∃ came, Event.shape.field? v "transaction" = some came ∧
        (∀ p : Payload, p.transaction = e.transaction →
          ∃ left, p.toJson.get? "transaction" = some left ∧ left.canonical = came.canonical) ∧
        ∀ services store, ∀ s ∈ Effect.sends (Pass.run services store e).effects,
          s.payload.transaction = e.transaction ∨
            s.payload.toJson.get? "transaction" = some e.transaction.minimal.toJson) ∧
    ∀ t : Transaction,
      t.minimal.toJson = .obj [("TxTp", .str t.txTp),
        ("FIToFIPmtSts", .obj [("GrpHdr", .obj [("MsgId", .str t.messageId)])])] ∧
      t.minimal.cacheKey = t.cacheKey ∧ t.minimal.minimal = t.minimal := by
  refine ⟨fun _ _ ↦ GroupHeader.canonical_toJson, fun _ _ ↦ PaymentStatus.canonical_toJson,
    fun _ _ ↦ Transaction.canonical_toJson, fun _ _ ↦ Metadata.canonical_toJson, ?_,
    fun t ↦ ⟨t.toJson_minimal, rfl, rfl⟩⟩
  intro v e hr
  obtain ⟨came, hcame, hsame⟩ := Event.canonical_transaction hr
  refine ⟨came, hcame, ?_, ?_⟩
  · intro p hp
    refine ⟨p.transaction.toJson, rfl, ?_⟩
    rw [hp, hsame]
  · intro services store s hs
    obtain hfull | hminimal := Pass.transaction_of_mem_run hs
    · exact .inl hfull
    · refine .inr ?_
      rw [← hminimal]
      rfl

private def strangeTransaction : Json :=
  .obj [("TenantId", .str "DEFAULT"),
    ("FIToFIPmtSts", .obj [("TxInfAndSts", .arr [.int 2, .float 2.0]),
      ("GrpHdr", .obj [("CreDtTm", .null), ("MsgId", .str "m")])]),
    ("TxTp", .str "pacs.002.001.12")]

private def untracedMetadata : Json := .obj [("traceParent", .null), ("prcgTmDP", .int 7)]

private def strangeValue : Json :=
  .arr [NetworkMap.toJson (.ofTypologies [⟨"T", "1", [⟨"A", "1"⟩]⟩]),
    RuleResult.toJson { id := "A", cfg := "1", subRuleRef := ".01" }, strangeTransaction,
    untracedMetadata]

private def strangeEvent : Event :=
  { Event.ofRule (.ofTypologies [⟨"T", "1", [⟨"A", "1"⟩]⟩]) "m" "A" "1" with
    transaction := ⟨"pacs.002.001.12", ⟨⟨"m", [("CreDtTm", .null)]⟩,
      [("TxInfAndSts", .arr [.int 2, .float 2.0])]⟩, [("TenantId", .str "DEFAULT")]⟩
    metadata := some ⟨none, [("prcgTmDP", .int 7)]⟩ }

/-- A transaction with members of its own at every level, in an event that is a list of its fields,
leaves as it came. The metadata beside it lose their trace, which is null. -/
theorem strange_transaction_untouched :
    Event.read (Draft.ofJson strangeValue) = .ok strangeEvent ∧
      (Effect.sends (Pass.run Services.plain {} strangeEvent).effects).map (·.payload.transaction) =
        [strangeEvent.transaction] ∧
      (∀ s ∈ Effect.sends (Pass.run Services.plain {} strangeEvent).effects,
        ∃ left, s.payload.toJson.get? "transaction" = some left ∧
          left.canonical = strangeTransaction.canonical) ∧
      ∃ m, Metadata.read (Draft.ofJson untracedMetadata) = .ok m ∧
        m.toJson.canonical = .obj [("prcgTmDP", .int 7)] := by
  obtain ⟨-, -, -, hmetadata, hevent, -⟩ := transactions_untouched
  have hread : Event.read (Draft.ofJson strangeValue) = .ok strangeEvent := by rfl
  have hsent : (Effect.sends (Pass.run Services.plain {} strangeEvent).effects).map
      (·.payload.transaction) = [strangeEvent.transaction] := by rfl
  obtain ⟨came, hcame, hfull, -⟩ := hevent strangeValue strangeEvent hread
  obtain rfl : strangeTransaction = came := Option.some.inj hcame
  refine ⟨hread, hsent, ?_, _, rfl, hmetadata untracedMetadata _ rfl⟩
  intro s hs
  apply hfull
  have hm := List.mem_map_of_mem (f := (·.payload.transaction)) hs
  rw [hsent] at hm
  exact List.mem_singleton.mp hm

end RiskTypology
