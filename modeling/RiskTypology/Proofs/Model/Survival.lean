import RiskTypology.Model.Definition
import RiskTypology.Model.Event
import RiskTypology.Proofs.Accumulator.Calls
import RiskTypology.Proofs.Expression.Survival
import RiskTypology.Proofs.Model.Transaction

/-!
# Model values survive the wire

Every value that is read from JSON reads the same from its own wire form: stored rule results,
definitions, events and what leaves in payloads. A record goes through its fields one by one.
-/

namespace RiskTypology

open Draft

/-- A rule survives. -/
theorem Rule.survives : Survives Rule.read Rule.toJson := by
  apply survives_record (fun _ ↦ rfl) (fun _ ↦ List.Sublist.refl _) (by decide)
  intro p hp r hr
  simp only [Partial.yields_seq, Partial.yields_map] at hr ⊢
  obtain ⟨id, hid, cfg, hcfg, rfl⟩ := hr
  exact ⟨id, survives_text.required hp hid rfl, cfg, survives_text.required hp hcfg rfl, rfl⟩

/-- A typology survives. -/
theorem Typology.survives : Survives Typology.read Typology.toJson := by
  apply survives_record (fun _ ↦ rfl) (fun _ ↦ List.Sublist.refl _) (by decide)
  intro p hp t ht
  simp only [Partial.yields_seq, Partial.yields_map] at ht ⊢
  obtain ⟨id, hid, cfg, hcfg, rules, hrules, rfl⟩ := ht
  exact ⟨id, survives_text.required hp hid rfl, cfg, survives_text.required hp hcfg rfl,
    rules, Rule.survives.list.required hp hrules rfl, rfl⟩

/-- A channel survives. -/
theorem Channel.survives : Survives Channel.read Channel.toJson := by
  apply survives_record (fun _ ↦ rfl) (fun _ ↦ List.Sublist.refl _) (by decide)
  intro p hp c hc
  simp only [Partial.yields_seq, Partial.yields_map] at hc ⊢
  obtain ⟨id, hid, cfg, hcfg, typologies, htypologies, rfl⟩ := hc
  exact ⟨id, survives_text.required hp hid rfl, cfg, survives_text.required hp hcfg rfl,
    typologies, Typology.survives.list.required hp htypologies rfl, rfl⟩

/-- A message survives. -/
theorem Message.survives : Survives Message.read Message.toJson := by
  apply survives_record (fun _ ↦ rfl) (fun _ ↦ List.Sublist.refl _) (by decide)
  intro p hp m hm
  simp only [Partial.yields_seq, Partial.yields_map] at hm ⊢
  obtain ⟨id, hid, cfg, hcfg, txTp, htype, channels, hchannels, rfl⟩ := hm
  exact ⟨id, survives_text.required hp hid rfl, cfg, survives_text.required hp hcfg rfl,
    txTp, survives_text.orElse hp rfl htype rfl,
    channels, Channel.survives.list.required hp hchannels rfl, rfl⟩

/-- A network map survives. -/
theorem NetworkMap.survives : Survives NetworkMap.read NetworkMap.toJson := by
  apply survives_record (fun _ ↦ rfl) (fun _ ↦ List.Sublist.refl _) (by decide)
  intro p hp m hm
  simp only [Partial.yields_seq, Partial.yields_map] at hm ⊢
  obtain ⟨active, hactive, cfg, hcfg, messages, hmessages, rfl⟩ := hm
  exact ⟨active, survives_flag.orElse hp rfl hactive rfl, cfg, survives_text.orElse hp rfl hcfg rfl,
    messages, Message.survives.list.required hp hmessages rfl, rfl⟩

/-- A rule result survives: a weight that was read is finite, and so it is kept. -/
theorem RuleResult.survives : Survives RuleResult.read RuleResult.toJson := by
  intro v hv r h
  have hfinite : r.FiniteWeight := by
    obtain ⟨p, hholds, hr⟩ := fields_of_record h
    have hp : p.Proper := ⟨_, hholds, fun _ _ ↦ shape.proper_of_field? hv⟩
    simp only [Partial.yields_seq, Partial.yields_map] at hr
    obtain ⟨id, -, cfg, -, ref, -, result, -, reason, -, duration, -, weight, hweight, rfl⟩ := hr
    rintro w rfl
    obtain ⟨j, hj, hread⟩ := exists_of_optional hp hweight
    exact isFinite_of_number hj hread
  rw [RuleResult.read_toJson, RuleResult.kept_of_finiteWeight hfinite]

/-- A weight survives. -/
theorem Weight.survives : Survives Weight.read Weight.toJson := by
  apply survives_record (fun _ ↦ rfl) (fun _ ↦ List.Sublist.refl _) (by decide)
  intro p hp w hw
  simp only [Partial.yields_seq, Partial.yields_map] at hw ⊢
  obtain ⟨ref, href, weight, hweight, rfl⟩ := hw
  exact ⟨ref, survives_text.required hp href rfl, weight, survives_number.required hp hweight rfl,
    rfl⟩

/-- The weights of a rule survive. -/
theorem RuleWeights.survives : Survives RuleWeights.read RuleWeights.toJson := by
  apply survives_record (fun _ ↦ rfl) (fun _ ↦ List.Sublist.refl _) (by decide)
  intro p hp r hr
  simp only [Partial.yields_seq, Partial.yields_map] at hr ⊢
  obtain ⟨id, hid, cfg, hcfg, term, hterm, weights, hweights, rfl⟩ := hr
  exact ⟨id, survives_text.required hp hid rfl, cfg, survives_text.required hp hcfg rfl,
    term, survives_text.required hp hterm rfl,
    weights, Weight.survives.list.required hp hweights rfl, rfl⟩

private theorem text_null (s : String) : text .null ≠ .ok s := by simp [text]

private theorem number_null (x : Float) : number .null ≠ .ok x := by simp [number]

private theorem word_null (n : UInt64) : word .null ≠ .ok n := by simp [word]

/-- Thresholds survive. -/
theorem Thresholds.survives : Survives Thresholds.read Thresholds.toJson := by
  apply survives_record (fun _ ↦ rfl) _ (by decide)
  · intro p hp t ht
    simp only [Partial.yields_seq, Partial.yields_map] at ht ⊢
    obtain ⟨alert, halert, interdiction, hinterdiction, rfl⟩ := ht
    refine ⟨alert, survives_number.optional number_null hp halert ?_,
      interdiction, survives_number.optional number_null hp hinterdiction ?_, rfl⟩
    all_goals simp [toJson, Json.members, List.lookup_append, Json.lookup_member?]
  · intro t
    simp only [toJson, Json.members, List.map_append]
    exact (Json.names_member? "alertThreshold" _).append
      (Json.names_member? "interdictionThreshold" _)

/-- A definition survives. -/
theorem Definition.survives : Survives Definition.read Definition.toJson := by
  apply survives_record (fun _ ↦ rfl) _ (by decide)
  · intro p hp d hd
    simp only [Partial.yields_seq, Partial.yields_map] at hd ⊢
    obtain ⟨id, hid, cfg, hcfg, desc, hdesc, rules, hrules, expression, hexpression, workflow,
      hworkflow, rfl⟩ := hd
    refine ⟨id, survives_text.required hp hid rfl, cfg, survives_text.required hp hcfg rfl,
      desc, survives_text.optional text_null hp hdesc ?_,
      rules, RuleWeights.survives.list.required hp hrules ?_,
      expression, Expression.survives.required hp hexpression ?_,
      workflow, Thresholds.survives.required hp hworkflow ?_, rfl⟩
    all_goals simp [toJson, Json.members, List.lookup_append, List.lookup_cons, Json.lookup_member?]
  · intro d
    simp only [toJson, Json.members, List.map_append]
    exact ((List.Sublist.refl ["id", "cfg"]).append (Json.names_member? "desc" _)).append
      (List.Sublist.refl ["rules", "expression", "workflow"])

/-- Reported thresholds survive. -/
theorem ReportedThresholds.survives :
    Survives ReportedThresholds.read ReportedThresholds.toJson := by
  apply survives_record (fun _ ↦ rfl) _ (by decide)
  · intro p hp t ht
    simp only [Partial.yields_seq, Partial.yields_map] at ht ⊢
    obtain ⟨alert, halert, interdiction, hinterdiction, rfl⟩ := ht
    refine ⟨alert, survives_number.required hp halert rfl,
      interdiction, survives_number.optional number_null hp hinterdiction ?_, rfl⟩
    simp [toJson, Json.members, List.lookup_cons, Json.lookup_member?]
  · intro t
    exact (Json.names_member? "interdictionThreshold" _).cons_cons "alertThreshold"

/-- A typology result survives. -/
theorem TypologyResult.survives : Survives TypologyResult.read TypologyResult.toJson := by
  apply survives_record (fun _ ↦ rfl) _ (by decide)
  · intro p hp t ht
    simp only [Partial.yields_seq, Partial.yields_map] at ht ⊢
    obtain ⟨id, hid, cfg, hcfg, result, hresult, ruleResults, hruleResults, review, hreview,
      workflow, hworkflow, duration, hduration, rfl⟩ := ht
    refine ⟨id, survives_text.required hp hid rfl, cfg, survives_text.required hp hcfg rfl,
      result, survives_number.required hp hresult rfl,
      ruleResults, RuleResult.survives.list.required hp hruleResults rfl,
      review, survives_flag.orElse hp rfl hreview rfl,
      workflow, ReportedThresholds.survives.required hp hworkflow rfl,
      duration, survives_word.optional word_null hp hduration ?_, rfl⟩
    simp [toJson, Json.members, List.lookup_cons, Json.lookup_member?]
  · intro t
    simp only [toJson, Json.members, List.map_append]
    exact (List.Sublist.refl ["id", "cfg", "result", "ruleResults", "review", "workflow"]).append
      (Json.names_member? "prcgTm" _)

private theorem transaction_survives : Survives Transaction.read Transaction.toJson :=
  fun _ _ _ ↦ Transaction.read_toJson

private theorem metadata_survives : Survives Metadata.read Metadata.toJson :=
  fun _ _ _ ↦ Metadata.read_toJson

private theorem metadata_null (m : Metadata) : Metadata.read .null ≠ .ok m := by
  simp [Metadata.read, openRecord]

/-- An event survives. -/
theorem Event.survives : Survives Event.read Event.toJson := by
  apply survives_record (fun _ ↦ rfl) _ (by decide)
  · intro p hp e he
    simp only [Partial.yields_seq, Partial.yields_map] at he ⊢
    obtain ⟨map, hmap, ruleResult, hruleResult, transaction, htransaction, metadata, hmetadata,
      rfl⟩ := he
    refine ⟨map, NetworkMap.survives.required hp hmap rfl,
      ruleResult, RuleResult.survives.required hp hruleResult rfl,
      transaction, transaction_survives.required hp htransaction rfl,
      metadata, metadata_survives.optional metadata_null hp hmetadata ?_, rfl⟩
    simp [toJson, Json.members, List.lookup_cons, Json.lookup_member?]
  · intro e
    simp only [toJson, Json.members, List.map_append]
    exact (List.Sublist.refl ["networkMap", "ruleResult", "transaction"]).append
      (Json.names_member? "metaData" _)

/-- A payload survives. -/
theorem Payload.survives : Survives Payload.read Payload.toJson := by
  apply survives_record (fun _ ↦ rfl) _ (by decide)
  · intro p hp q hq
    simp only [Partial.yields_seq, Partial.yields_map] at hq ⊢
    obtain ⟨report, hreport, transaction, htransaction, map, hmap, metadata, hmetadata, rfl⟩ := hq
    refine ⟨report, TypologyResult.survives.required hp hreport rfl,
      transaction, transaction_survives.required hp htransaction rfl,
      map, NetworkMap.survives.required hp hmap rfl,
      metadata, metadata_survives.optional metadata_null hp hmetadata ?_, rfl⟩
    simp [toJson, Json.members, List.lookup_cons, Json.lookup_member?]
  · intro q
    simp only [toJson, Json.members, List.map_append]
    exact (List.Sublist.refl ["typologyResult", "transaction", "networkMap"]).append
      (Json.names_member? "metaData" _)

/-- Everything of the model that goes over the wire survives it. What is read as a value of the
model from anything JSON can hold, be it an object or a list of its fields, reads the same from its
own wire form. -/
theorem model_values_survive :
    Survives RuleResult.read RuleResult.toJson ∧ Survives Weight.read Weight.toJson ∧
    Survives RuleWeights.read RuleWeights.toJson ∧ Survives Thresholds.read Thresholds.toJson ∧
    Survives Definition.read Definition.toJson ∧
    Survives ReportedThresholds.read ReportedThresholds.toJson ∧
    Survives TypologyResult.read TypologyResult.toJson ∧
    Survives GroupHeader.read GroupHeader.toJson ∧
    Survives PaymentStatus.read PaymentStatus.toJson ∧
    Survives Transaction.read Transaction.toJson ∧ Survives Metadata.read Metadata.toJson ∧
    Survives Event.read Event.toJson ∧ Survives Payload.read Payload.toJson ∧
    Survives Rule.read Rule.toJson ∧ Survives Typology.read Typology.toJson ∧
    Survives Channel.read Channel.toJson ∧ Survives Message.read Message.toJson ∧
    Survives NetworkMap.read NetworkMap.toJson :=
  ⟨RuleResult.survives, Weight.survives, RuleWeights.survives, Thresholds.survives,
    Definition.survives, ReportedThresholds.survives, TypologyResult.survives,
    fun _ _ _ ↦ GroupHeader.read_toJson, fun _ _ _ ↦ PaymentStatus.read_toJson,
    transaction_survives, metadata_survives, Event.survives, Payload.survives, Rule.survives,
    Typology.survives, Channel.survives, Message.survives, NetworkMap.survives⟩

private def infixDefinition : Json :=
  .arr [.str "T", .str "1", .null,
    .arr [.obj [("wghts", .arr [.arr [.str ".01", .int 2]]), ("termId", .str "a"),
      ("cfg", .str "1"), ("unknown", .bool true), ("id", .str "A")]],
    .arr [.str "a", .str "+", .arr [.str "*", .int 3, .str "+"]],
    .obj [("interdictionThreshold", .null), ("alertThreshold", .int 5)]]

/-- A definition that is a list of its fields, with a null description, an unknown member and
operators at other places than the first: its wire form is another value and reads the same. -/
theorem infix_definition_survives :
    ∃ d, infixDefinition.Proper ∧ Definition.read (ofJson infixDefinition) = .ok d ∧
      d.toJson.get? "desc" = none ∧ (d.toJson.get? "expression").isSome ∧
      Definition.read (ofJson d.toJson) = .ok d := by
  obtain ⟨-, -, -, -, hdefinition, -⟩ := model_values_survive
  have hproper : infixDefinition.Proper := by simp [infixDefinition]
  exact ⟨_, hproper, rfl, rfl, rfl, hdefinition infixDefinition hproper _ rfl⟩

end RiskTypology
