import RiskTypology.Expression.PrefixForm
import RiskTypology.Proofs.Draft.Survival
import RiskTypology.Proofs.Json.Canonical

/-!
# Expressions survive the wire

Writing puts the operator first, so the first operator token of a written list is its operator and
all elements behind it are operands, operator tokens among them. Literals survive as they are
finite.
-/

namespace RiskTypology

namespace PrefixForm

/-- The numbers of a form are finite. -/
inductive Finite : PrefixForm → Prop
  | number {x : Float} (h : x.isFinite = true) : Finite (.number x)
  | token (s : String) : Finite (.token s)
  | nested {elements : List PrefixForm} (h : ∀ f ∈ elements, Finite f) : Finite (.nested elements)

/-- Values have forms if one after the other has. -/
theorem ofItems?_eq_some {items : List Json} {forms : List PrefixForm} :
    ofItems? items = some forms ↔ List.Forall₂ (fun j f ↦ ofJson? j = some f) items forms := by
  induction items generalizing forms with
  | nil => simp [ofItems?, eq_comm]
  | cons j rest ih =>
    simp only [ofItems?, Option.bind_eq_bind, Option.bind_eq_some_iff, List.forall₂_cons_left_iff,
      ← ih]
    constructor
    · rintro ⟨f, hf, tail, htail, h⟩
      cases h
      exact ⟨f, tail, hf, htail, rfl⟩
    · rintro ⟨f, tail, hf, htail, rfl⟩
      exact ⟨f, hf, tail, htail, rfl⟩

private theorem ofItems?_map_canonical {items : List Json}
    (h : ∀ j ∈ items, ofJson? j.canonical = ofJson? j) :
    ofItems? (items.map Json.canonical) = ofItems? items := by
  induction items with
  | nil => rfl
  | cons j rest ih =>
    have hrest := ih fun k hk ↦ h k (List.mem_cons_of_mem _ hk)
    rw [List.map_cons, ofItems?, ofItems?, h j List.mem_cons_self, hrest]

/-- The order of members does not matter to a form: a value with members has none. -/
theorem ofJson?_canonical (j : Json) : ofJson? j.canonical = ofJson? j := by
  induction j using Json.induction with
  | null | bool | int | float | str => rfl
  | arr items ih => rw [Json.canonical_arr, ofJson?, ofJson?, ofItems?_map_canonical ih]
  | obj members ih =>
    rw [Json.canonical_obj]
    rfl

/-- The numbers in the form of a proper value are finite. -/
theorem finite_of_proper {j : Json} (hj : j.Proper) {f : PrefixForm} (h : ofJson? j = some f) :
    f.Finite := by
  induction hj generalizing f with
  | int hl hu =>
    cases h
    exact .number (Decimal.isFinite_ofInt (by omega) (by omega))
  | float hx =>
    cases h
    exact .number hx
  | str s =>
    cases h
    exact .token s
  | arr _ ih =>
    obtain ⟨forms, hforms, hf⟩ := Option.bind_eq_some_iff.mp h
    cases hf
    refine .nested fun g hg ↦ ?_
    obtain ⟨j, hj, hjg⟩ := exists_of_forall₂ (ofItems?_eq_some.mp hforms) hg
    exact ih j hj hjg
  | null | bool | obj => cases h

/-- Elements behind the operator are operands if one after the other has an expression. -/
theorem plainOperands_eq_ok {elements : List PrefixForm} {es : List Expression} :
    plainOperands elements = .ok es ↔
      List.Forall₂ (fun f e ↦ f.toExpression = .ok e) elements es := by
  induction elements generalizing es with
  | nil => simp [plainOperands, eq_comm]
  | cons f rest ih =>
    simp only [plainOperands, Draft.bind_eq_ok, List.forall₂_cons_left_iff, ← ih]
    constructor
    · rintro ⟨e, he, tail, htail, h⟩
      cases h
      exact ⟨e, tail, he, htail, rfl⟩
    · rintro ⟨e, tail, he, htail, rfl⟩
      exact ⟨e, he, tail, htail, rfl⟩

/-- The operands are all elements but the first that names an operator. -/
theorem operands_eq (elements : List PrefixForm) :
    operands elements = plainOperands (elements.eraseP fun f ↦ f.operator?.isSome) := by
  induction elements with
  | nil => rw [operands, List.eraseP_nil, plainOperands]
  | cons f rest ih =>
    cases ho : f.operator? with
    | none => rw [operands, ho, List.eraseP_cons_of_neg (by simp [ho]), plainOperands, ih]
    | some op => rw [operands, ho, List.eraseP_cons_of_pos (by simp [ho])]

end PrefixForm

namespace Expression

/-- The literals of an expression are finite. -/
inductive Finite : Expression → Prop
  | literal {x : Float} (h : x.isFinite = true) : Finite (.literal x)
  | term (name : String) : Finite (.term name)
  | apply (op : Operator) {operands : List Expression} (h : ∀ e ∈ operands, Finite e) :
    Finite (.apply op operands)

/-- The literals in the expression of a form are numbers of the form. -/
theorem finite_of_form {f : PrefixForm} (hf : f.Finite) {e : Expression}
    (h : f.toExpression = .ok e) : e.Finite := by
  induction hf generalizing e with
  | number hx =>
    rw [PrefixForm.toExpression] at h
    cases h
    exact .literal hx
  | token s =>
    rw [PrefixForm.toExpression] at h
    cases h
    exact .term s
  | @nested elements _ ih =>
    rw [PrefixForm.toExpression] at h
    split at h
    · cases h
    · next op hop =>
      obtain ⟨es, hes, h⟩ := Draft.bind_eq_ok.mp h
      cases h
      refine .apply op fun e he ↦ ?_
      rw [PrefixForm.operands_eq, PrefixForm.plainOperands_eq_ok] at hes
      obtain ⟨f, hf, hfe⟩ := exists_of_forall₂ hes he
      exact ih f (List.mem_of_mem_eraseP hf) hfe

private theorem exists_forms {es : List Expression}
    (h : ∀ e ∈ es, ∃ f, PrefixForm.ofJson? e.toJson = some f ∧ f.toExpression = .ok e) :
    ∃ forms, PrefixForm.ofItems? (toItems es) = some forms ∧
      PrefixForm.plainOperands forms = .ok es := by
  induction es with
  | nil => exact ⟨[], rfl, PrefixForm.plainOperands_eq_ok.mpr .nil⟩
  | cons e rest ih =>
    obtain ⟨f, hf, hfe⟩ := h e List.mem_cons_self
    obtain ⟨forms, hforms, hrest⟩ := ih fun e he ↦ h e (List.mem_cons_of_mem _ he)
    rw [PrefixForm.ofItems?_eq_some] at hforms
    rw [PrefixForm.plainOperands_eq_ok] at hrest
    exact ⟨f :: forms, PrefixForm.ofItems?_eq_some.mpr (.cons hf hforms),
      PrefixForm.plainOperands_eq_ok.mpr (.cons hfe hrest)⟩

/-- The wire form of an expression with finite literals has a form, and that has the expression. -/
theorem Finite.exists_form {e : Expression} (h : e.Finite) :
    ∃ f, PrefixForm.ofJson? e.toJson = some f ∧ f.toExpression = .ok e := by
  induction h with
  | @literal x hx =>
    refine ⟨.number x, ?_, by rw [PrefixForm.toExpression]⟩
    rw [toJson, Json.ofFloat, if_pos hx]
    rfl
  | term name => exact ⟨.token name, rfl, by rw [PrefixForm.toExpression]⟩
  | @apply op operands _ ih =>
    obtain ⟨forms, hforms, hoperands⟩ := exists_forms ih
    have hop : PrefixForm.operator? (.token op.token) = some op :=
      Operator.ofToken?_eq_some_iff.mpr rfl
    refine ⟨.nested (.token op.token :: forms), ?_, ?_⟩
    · have hitems : PrefixForm.ofItems? (.str op.token :: toItems operands) =
          some (.token op.token :: forms) :=
        PrefixForm.ofItems?_eq_some.mpr (.cons rfl (PrefixForm.ofItems?_eq_some.mp hforms))
      rw [toJson, PrefixForm.ofJson?, hitems]
      rfl
    -- The operator stands first, so all the rest are operands.
    · rw [PrefixForm.toExpression, List.findSome?_cons, hop, PrefixForm.operands]
      simp only [hop]
      rw [hoperands]
      rfl

/-- An expression is read from a value as it stands. -/
theorem read_ofJson (j : Json) : read (Draft.ofJson j) = ofJson j := by
  rw [read, Draft.toJson_ofJson]
  change ofJson j.canonical = ofJson j
  rw [ofJson, ofJson, PrefixForm.ofJson?_canonical]

/-- An expression with finite literals is read from its wire form. -/
theorem Finite.read_toJson {e : Expression} (h : e.Finite) : read (.ofJson e.toJson) = .ok e := by
  obtain ⟨f, hf, hfe⟩ := h.exists_form
  rw [read_ofJson, ofJson, hf]
  exact hfe

/-- The literals of what is read from a proper value are finite. -/
theorem finite_of_read {v : Json} (hv : v.Proper) {e : Expression}
    (h : read (.ofJson v) = .ok e) : e.Finite := by
  rw [read_ofJson, ofJson] at h
  split at h
  · next form hform => exact finite_of_form (PrefixForm.finite_of_proper hv hform) h
  · cases h

/-- An expression survives. -/
theorem survives : Draft.Survives read toJson := fun _ hv _ h ↦ (finite_of_read hv h).read_toJson

end Expression
end RiskTypology
