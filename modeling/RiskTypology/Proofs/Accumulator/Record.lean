import RiskTypology.Accumulator.Gateway
import RiskTypology.Proofs.Draft.Written

/-!
# What a record keeps

A stored rule result comes back with every field as it was saved. Only a weight that no JSON number
stands for is lost.
-/

namespace RiskTypology

namespace RuleResult

/-- The rule result as the store gives it back. -/
def kept (r : RuleResult) : RuleResult := { r with weight := r.weight.filter Float.isFinite }

private theorem lookup_reason (r : RuleResult) :
    r.toJson.members.lookup "reason" = r.reason.map .str := by
  simp [toJson, Json.members, List.lookup_append, List.lookup_cons, Json.lookup_member?]

private theorem lookup_duration (r : RuleResult) :
    r.toJson.members.lookup "prcgTm" = r.duration.map fun n ↦ .int n.toNat := by
  simp [toJson, Json.members, List.lookup_append, List.lookup_cons, Json.lookup_member?]

private theorem lookup_weight (r : RuleResult) :
    r.toJson.members.lookup "wght" = r.weight.map Json.ofFloat := by
  simp [toJson, Json.members, List.lookup_append, List.lookup_cons, Json.lookup_member?]

private theorem leftover_toJson (r : RuleResult) :
    (Parts.written shape r.toJson.members).leftover = .ok () := by
  apply Parts.leftover_written _ (by decide)
  simp only [toJson, Json.members, List.map_append]
  exact (((List.Sublist.refl ["id", "cfg", "subRuleRef", "result"]).append
    (Json.names_member? "reason" _)).append (Json.names_member? "prcgTm" _)).append
    (Json.names_member? "wght" _)

/-- Reading a written rule result gives what is kept of it. -/
theorem read_toJson (r : RuleResult) : read (Draft.ofJson r.toJson) = .ok r.kept := by
  let p := Parts.written shape r.toJson.members
  have hid : p.required "id" Draft.text = .ok r.id := Parts.required_written rfl rfl
  have hcfg : p.required "cfg" Draft.text = .ok r.cfg := Parts.required_written rfl rfl
  have href : p.required "subRuleRef" Draft.text = .ok r.subRuleRef :=
    Parts.required_written rfl rfl
  have hresult : p.orElse "result" false Draft.flag = .ok r.result :=
    Parts.orElse_written rfl rfl
  have hreason : p.optional "reason" Draft.text = .ok r.reason := by
    apply Parts.optional_written r.lookup_reason
    · intro j hj
      obtain ⟨s, hs, rfl⟩ := Option.map_eq_some_iff.mp hj
      rw [hs]
      rfl
    · exact Option.map_eq_none_iff.mp
  have hduration : p.optional "prcgTm" Draft.word = .ok r.duration := by
    apply Parts.optional_written r.lookup_duration
    · intro j hj
      obtain ⟨n, hn, rfl⟩ := Option.map_eq_some_iff.mp hj
      rw [hn]
      change some <$> Draft.word (.int n.toNat) = _
      rw [Draft.word_ofNat]
      rfl
    · exact Option.map_eq_none_iff.mp
  have hweight : p.optional "wght" Draft.number = .ok r.kept.weight := by
    apply Parts.optional_written r.lookup_weight
    · intro j hj
      obtain ⟨x, hx, rfl⟩ := Option.map_eq_some_iff.mp hj
      rw [Draft.nullable_number_ofFloat, kept, hx]
    · intro hn
      rw [kept, Option.map_eq_none_iff.mp hn, Option.filter_none]
  apply Draft.record_written _ r.leftover_toJson
  rw [hid, hcfg, href, hresult, hreason, hduration, hweight]
  rfl

end RuleResult

namespace StoredResult

/-- Reading a stored record gives what is kept of its rule result. -/
theorem read_toJson (r : RuleResult) :
    read (Draft.ofJson (toJson ⟨r⟩)) = .ok ⟨r.kept⟩ := by
  have hr : (Parts.written shape [("ruleResult", r.toJson)]).required "ruleResult" RuleResult.read =
      .ok r.kept := Parts.required_written rfl r.read_toJson
  apply Draft.record_written _ (Parts.leftover_written (List.Sublist.refl _) (by decide))
  rw [hr]
  rfl

end StoredResult
end RiskTypology
