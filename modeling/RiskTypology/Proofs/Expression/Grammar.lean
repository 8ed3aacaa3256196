import RiskTypology.Proofs.Expression.Survival

/-!
# The grammar of expressions

A value is an expression if it is made of numbers, texts and lists alone and every list in it has an
operator token among its items. The first such token of a list is its operator, and all its other
items are operands, later tokens among them. The main statement: exactly these values are read, and
as the grammar says. Whatever holds anything else is refused for that; of what is left the first
list without an operator is told, where outer lists come before inner ones and siblings from left to
right.
-/

namespace RiskTypology

namespace Json

mutual

/-- A value and everything in it: what is outside before what is inside, and siblings from left to
right. -/
def parts : Json → List Json
  | .arr items => .arr items :: partsOfItems items
  | .obj members => .obj members :: partsOfMembers members
  | j => [j]

private def partsOfItems : List Json → List Json
  | [] => []
  | j :: rest => j.parts ++ partsOfItems rest

private def partsOfMembers : List (String × Json) → List Json
  | [] => []
  | (_, j) :: rest => j.parts ++ partsOfMembers rest

end

private theorem partsOfItems_eq_flatMap (items : List Json) :
    partsOfItems items = items.flatMap parts := by
  induction items with
  | nil => rfl
  | cons j rest ih => rw [partsOfItems, ih, List.flatMap_cons]

/-- A list comes before the parts of its items. -/
theorem parts_arr (items : List Json) : (arr items).parts = .arr items :: items.flatMap parts := by
  rw [parts, partsOfItems_eq_flatMap]

/-- The items of a list. -/
def items? : Json → Option (List Json)
  | .arr items => some items
  | _ => none

/-- The lists in a value, outer ones before inner ones and siblings from left to right. -/
def lists (j : Json) : List (List Json) := j.parts.filterMap items?

/-- A list comes before the lists in its items. -/
theorem lists_arr (items : List Json) : (arr items).lists = items :: items.flatMap lists := by
  rw [lists, parts_arr, List.filterMap_cons, List.filterMap_flatMap]
  rfl

/-- Whether a value is a number, a text or a list. -/
def isFormal : Json → Bool
  | .int _ | .float _ | .str _ | .arr _ => true
  | .null | .bool _ | .obj _ => false

/-- A value is made of numbers, texts and lists alone. -/
def Formal (j : Json) : Prop := ∀ part ∈ j.parts, part.isFormal = true

/-- Whether a value is formal can be tested on its parts. -/
instance (j : Json) : Decidable j.Formal := inferInstanceAs (Decidable (∀ part ∈ j.parts, _))

/-- A list is formal if its items are. -/
theorem formal_arr {items : List Json} : (arr items).Formal ↔ ∀ j ∈ items, j.Formal := by
  simp only [Formal, parts_arr, List.forall_mem_cons, List.forall_mem_flatMap]
  exact and_iff_right rfl

/-- Whether a value is an operator token. -/
def isToken : Json → Bool
  | .str s => (Operator.ofToken? s).isSome
  | _ => false

/-- The operator tokens are those of the operators. -/
theorem isToken_iff {j : Json} : j.isToken = true ↔ ∃ op : Operator, j = .str op.token := by
  cases j <;> simp [isToken, Option.isSome_iff_exists, Operator.ofToken?_eq_some_iff]

/-- Some items have an operator token among them. -/
def HasOperator (items : List Json) : Prop := ∃ op : Operator, .str op.token ∈ items

/-- Items have an operator if one of them is a token. -/
theorem any_isToken_iff {items : List Json} : items.any isToken = true ↔ HasOperator items := by
  rw [List.any_eq_true]
  constructor
  · rintro ⟨j, hj, ht⟩
    obtain ⟨op, rfl⟩ := isToken_iff.mp ht
    exact ⟨op, hj⟩
  · rintro ⟨op, hop⟩
    exact ⟨_, hop, isToken_iff.mpr ⟨op, rfl⟩⟩

/-- Whether items have an operator can be tested on the tokens. -/
instance (items : List Json) : Decidable (HasOperator items) :=
  decidable_of_iff _ any_isToken_iff

/-- Items with an operator have a first one. -/
theorem HasOperator.exists_first {items : List Json} (h : HasOperator items) :
    ∃ before op after, items = before ++ .str (Operator.token op) :: after ∧
      ¬ HasOperator before := by
  obtain ⟨j, hj⟩ := Option.isSome_iff_exists.mp
    (List.find?_isSome.mpr (List.any_eq_true.mp (any_isToken_iff.mpr h)))
  obtain ⟨ht, before, after, rfl, hbefore⟩ := List.find?_eq_some_iff_append.mp hj
  obtain ⟨op, rfl⟩ := isToken_iff.mp ht
  refine ⟨before, op, after, rfl, ?_⟩
  rw [← any_isToken_iff, List.any_eq_true]
  rintro ⟨k, hk, hkt⟩
  have hno := hbefore k hk
  rw [hkt] at hno
  cases hno

end Json

namespace PrefixForm

private theorem operator?_of_form {j : Json} {f : PrefixForm} (h : ofJson? j = some f)
    {op : Operator} :
    f.operator? = some op ↔ j = .str op.token := by
  cases j with
  | int | float =>
    cases h
    simp [operator?]
  | str s =>
    cases h
    simp [operator?, Operator.ofToken?_eq_some_iff]
  | arr items =>
    obtain ⟨forms, -, hf⟩ := Option.bind_eq_some_iff.mp h
    cases hf
    simp [operator?]
  | null | bool | obj => cases h

private theorem isSome_ofItems? {items : List Json} :
    (ofItems? items).isSome = true ↔ ∀ j ∈ items, (ofJson? j).isSome = true := by
  induction items with
  | nil => simp [ofItems?]
  | cons j rest ih =>
    rw [List.forall_mem_cons, ← ih, ofItems?]
    cases ofJson? j <;> cases ofItems? rest <;> simp

/-- A value has a form exactly if it is made of numbers, texts and lists alone. -/
theorem isSome_ofJson? (j : Json) : (ofJson? j).isSome = true ↔ j.Formal := by
  induction j using Json.induction with
  | null | bool | int | float | str | obj =>
    simp [ofJson?, Json.Formal, Json.parts, Json.isFormal]
  | arr items ih =>
    have hitems : (ofJson? (.arr items)).isSome = (ofItems? items).isSome := by
      rw [ofJson?]
      cases ofItems? items <;> rfl
    rw [hitems, isSome_ofItems?, Json.formal_arr]
    exact forall₂_congr ih

private theorem eq_filterMap_of_forall₂ {items : List Json} {forms : List PrefixForm}
    (h : List.Forall₂ (fun j f ↦ ofJson? j = some f) items forms) :
    forms = items.filterMap ofJson? := by
  induction h with
  | nil => rfl
  | cons hj _ ih => rw [List.filterMap_cons_some hj, ← ih]

/-- The form of a list has the forms of its items. -/
theorem ofJson?_arr {items : List Json} (h : (Json.arr items).Formal) :
    ofJson? (.arr items) = some (.nested (items.filterMap ofJson?)) := by
  obtain ⟨f, hf⟩ := Option.isSome_iff_exists.mp ((isSome_ofJson? _).mpr h)
  obtain ⟨forms, hforms, hnested⟩ := Option.bind_eq_some_iff.mp hf
  cases hnested
  rw [hf, eq_filterMap_of_forall₂ (ofItems?_eq_some.mp hforms)]

private theorem operator?_eq_none {items : List Json} (h : ¬ Json.HasOperator items) :
    ∀ f ∈ items.filterMap ofJson?, f.operator? = none := by
  intro f hf
  obtain ⟨j, hj, hjf⟩ := List.mem_filterMap.mp hf
  cases ho : f.operator? with
  | none => rfl
  | some op =>
    rw [(operator?_of_form hjf).mp ho] at hj
    exact absurd ⟨op, hj⟩ h

end PrefixForm

namespace Expression

open Draft (fault? fault?_eq_some)
open PrefixForm (ofJson? plainOperands noOperator)

/-- Which value is which expression. -/
inductive Reads : Json → Expression → Prop
  | int (i : Int) : Reads (.int i) (.literal (Float.ofInt i))
  | float (x : Float) : Reads (.float x) (.literal x)
  | str (s : String) : Reads (.str s) (.term s)
  | arr {before after : List Json} {op : Operator} {operands : List Expression}
    (hfirst : ¬ Json.HasOperator before) (h : List.Forall₂ Reads (before ++ after) operands) :
    Reads (.arr (before ++ .str op.token :: after)) (.apply op operands)

private theorem ofJson_of_form {j : Json} {f : PrefixForm} (h : ofJson? j = some f) :
    ofJson j = f.toExpression := by
  rw [ofJson, h]

private theorem exists_form {j : Json} (h : j.Formal) : ∃ f, ofJson? j = some f :=
  Option.isSome_iff_exists.mp ((PrefixForm.isSome_ofJson? j).mpr h)

/-- What is not formal is refused as a whole. -/
theorem ofJson_of_not_formal {j : Json} (h : ¬ j.Formal) :
    ofJson j = .error (.noAlternative "RawExpression") := by
  rw [← PrefixForm.isSome_ofJson?, Option.not_isSome_iff_eq_none] at h
  rw [ofJson, h]

/-- A list without an operator is refused with all its items. -/
theorem ofJson_arr_of_not_hasOperator {items : List Json} (hf : (Json.arr items).Formal)
    (h : ¬ Json.HasOperator items) :
    ofJson (.arr items) = .error (.refused (noOperator (items.filterMap ofJson?))) := by
  have hnone := List.findSome?_eq_none_iff.mpr (PrefixForm.operator?_eq_none h)
  rw [ofJson_of_form (PrefixForm.ofJson?_arr hf), PrefixForm.toExpression, hnone]

/-- The first operator token of a list is its operator, and all around it are its operands. -/
theorem ofJson_arr_of_first {before after : List Json} {op : Operator}
    (hf : (Json.arr (before ++ .str op.token :: after)).Formal) (h : ¬ Json.HasOperator before) :
    ofJson (.arr (before ++ .str op.token :: after)) =
      do return .apply op (← plainOperands ((before ++ after).filterMap ofJson?)) := by
  have hnone := PrefixForm.operator?_eq_none h
  have hop : PrefixForm.operator? (.token op.token) = some op :=
    Operator.ofToken?_eq_some_iff.mpr rfl
  have htoken : ofJson? (.str op.token) = some (.token op.token) := rfl
  have hforms : (before ++ .str op.token :: after).filterMap ofJson? =
      before.filterMap ofJson? ++ .token op.token :: after.filterMap ofJson? := by
    rw [List.filterMap_append, List.filterMap_cons_some htoken]
  have hrest : (before.filterMap ofJson? ++ .token op.token :: after.filterMap ofJson?).eraseP
      (fun f ↦ f.operator?.isSome) = (before ++ after).filterMap ofJson? := by
    rw [List.eraseP_append_right, List.eraseP_cons_of_pos, List.filterMap_append]
    · rw [hop]
      rfl
    · intro f hf
      simp [hnone f hf]
  rw [ofJson_of_form (PrefixForm.ofJson?_arr hf), hforms, PrefixForm.toExpression,
    List.findSome?_append, List.findSome?_eq_none_iff.mpr hnone, Option.none_or,
    List.findSome?_cons, hop, PrefixForm.operands_eq, hrest]

/-- Items are operands if one after the other is an expression. -/
theorem plainOperands_eq_ok_iff {items : List Json} (hf : ∀ j ∈ items, j.Formal)
    {es : List Expression} :
    plainOperands (items.filterMap ofJson?) = .ok es ↔
      List.Forall₂ (fun j e ↦ ofJson j = .ok e) items es := by
  induction items generalizing es with
  | nil => simp [plainOperands, eq_comm]
  | cons j rest ih =>
    obtain ⟨f, hj⟩ := exists_form (hf j List.mem_cons_self)
    rw [List.filterMap_cons_some hj, PrefixForm.plainOperands_eq_ok, List.forall₂_cons_left_iff,
      List.forall₂_cons_left_iff]
    simp only [← PrefixForm.plainOperands_eq_ok, ofJson_of_form hj,
      ih fun k hk ↦ hf k (List.mem_cons_of_mem _ hk)]

/-- Of several items that are no expressions the first is told. -/
theorem fault?_plainOperands {items : List Json} (hf : ∀ j ∈ items, j.Formal) :
    fault? (plainOperands (items.filterMap ofJson?)) =
      items.findSome? fun j ↦ fault? (ofJson j) := by
  induction items with
  | nil => rfl
  | cons j rest ih =>
    obtain ⟨f, hj⟩ := exists_form (hf j List.mem_cons_self)
    rw [List.filterMap_cons_some hj, List.findSome?_cons, ofJson_of_form hj,
      ← ih fun k hk ↦ hf k (List.mem_cons_of_mem _ hk), plainOperands]
    cases f.toExpression with
    | error x => rfl
    | ok e => cases plainOperands (rest.filterMap ofJson?) <;> rfl

private theorem formal_of_ofJson {j : Json} {e : Expression} (h : ofJson j = .ok e) : j.Formal := by
  by_contra hf
  rw [ofJson_of_not_formal hf] at h
  cases h

/-- A value is read if it is an expression. -/
theorem reads_of_ofJson {j : Json} {e : Expression} (h : ofJson j = .ok e) : Reads j e := by
  induction j using Json.induction generalizing e with
  | int i =>
    cases h
    exact .int i
  | float x =>
    cases h
    exact .float x
  | str s =>
    cases h
    exact .str s
  | null | bool | obj => cases h
  | arr items ih =>
    have hf := formal_of_ofJson h
    by_cases ho : Json.HasOperator items
    · obtain ⟨before, op, after, rfl, hfirst⟩ := ho.exists_first
      have hitems : before ++ after ⊆ before ++ .str op.token :: after :=
        ((List.sublist_cons_self _ _).append_left _).subset
      rw [ofJson_arr_of_first hf hfirst] at h
      obtain ⟨operands, hoperands, he⟩ := Draft.bind_eq_ok.mp h
      cases he
      rw [plainOperands_eq_ok_iff fun j hj ↦ Json.formal_arr.mp hf j (hitems hj)] at hoperands
      have hreads := (List.forall₂_and_left _ _).mpr ⟨fun _ ↦ @hitems _, hoperands⟩
      exact .arr hfirst (hreads.imp fun j e hj ↦ ih j hj.1 hj.2)
    · rw [ofJson_arr_of_not_hasOperator hf ho] at h
      cases h

/-- An expression is read. -/
theorem ofJson_of_reads {j : Json} {e : Expression} (h : Reads j e) : ofJson j = .ok e := by
  induction j using Json.induction generalizing e with
  | int | float | str =>
    cases h
    rfl
  | null | bool | obj => cases h
  | arr items ih =>
    cases h with
    | @arr before after op operands hfirst h =>
      have hitems : before ++ after ⊆ before ++ .str op.token :: after :=
        ((List.sublist_cons_self _ _).append_left _).subset
      have hread : List.Forall₂ (fun j e ↦ ofJson j = .ok e) (before ++ after) operands :=
        ((List.forall₂_and_left _ _).mpr ⟨fun _ ↦ @hitems _, h⟩).imp fun j e hj ↦ ih j hj.1 hj.2
      have hoperands : ∀ j ∈ before ++ after, j.Formal := by
        intro j hj
        obtain ⟨e, -, he⟩ := exists_of_forall₂ (List.Forall₂.flip hread) hj
        exact formal_of_ofJson he
      have hf : (Json.arr (before ++ .str op.token :: after)).Formal := by
        rw [Json.formal_arr]
        intro j hj
        obtain hj | hj := List.mem_append.mp hj
        · exact hoperands j (List.mem_append_left _ hj)
        obtain rfl | hj := List.mem_cons.mp hj
        · simp [Json.Formal, Json.parts, Json.isFormal]
        · exact hoperands j (List.mem_append_right _ hj)
      rw [ofJson_arr_of_first hf hfirst, (plainOperands_eq_ok_iff hoperands).mpr hread]
      rfl

/-- The fault of a list without an operator. -/
def refusal (items : List Json) : Fault :=
  .refused ("expression [" ++ PrefixForm.describeAll (items.filterMap ofJson?) ++
    "] has no operator")

private theorem findSome?_fault? {items : List Json}
    (h : ∀ j ∈ items, fault? (ofJson j) = (j.lists.find? (¬ Json.HasOperator ·)).map refusal) :
    (items.findSome? fun j ↦ fault? (ofJson j)) =
      ((items.flatMap Json.lists).find? (¬ Json.HasOperator ·)).map refusal := by
  induction items with
  | nil => rfl
  | cons j rest ih =>
    rw [List.findSome?_cons, h j List.mem_cons_self, List.flatMap_cons, List.find?_append,
      ih fun k hk ↦ h k (List.mem_cons_of_mem _ hk)]
    cases j.lists.find? (¬ Json.HasOperator ·) <;> rfl

/-- Of a formal value the first list without an operator is told. -/
theorem fault?_ofJson {j : Json} (hf : j.Formal) :
    fault? (ofJson j) = (j.lists.find? (¬ Json.HasOperator ·)).map refusal := by
  induction j using Json.induction with
  | int | float | str => rfl
  | null | bool | obj => exact absurd (hf _ List.mem_cons_self) (by simp [Json.isFormal])
  | arr items ih =>
    have hformal := Json.formal_arr.mp hf
    have hfaults := findSome?_fault? fun j hj ↦ ih j hj (hformal j hj)
    rw [Json.lists_arr, List.find?_cons]
    by_cases ho : Json.HasOperator items
    · obtain ⟨before, op, after, rfl, hfirst⟩ := ho.exists_first
      have hitems : before ++ after ⊆ before ++ .str op.token :: after :=
        ((List.sublist_cons_self _ _).append_left _).subset
      have hoperands := fault?_plainOperands fun j hj ↦ hformal j (hitems hj)
      -- The operator itself has no fault, so it may stand among the operands.
      have htoken : fault? (ofJson (.str op.token)) = none := rfl
      have hall : ((before ++ after).findSome? fun j ↦ fault? (ofJson j)) =
          (before ++ .str op.token :: after).findSome? fun j ↦ fault? (ofJson j) := by
        rw [List.findSome?_append, List.findSome?_append, List.findSome?_cons, htoken]
      rw [ofJson_arr_of_first hf hfirst]
      simp only [ho, not_true_eq_false, decide_false, ← hfaults, ← hall, ← hoperands]
      cases plainOperands ((before ++ after).filterMap ofJson?) <;> rfl
    · rw [ofJson_arr_of_not_hasOperator hf ho]
      simp [ho, fault?, refusal, noOperator]

/-- A value is read exactly if it is made of numbers, texts and lists alone and every list in it has
an operator token among its items; it is then read as the expression it is. If it holds anything
else, no alternative fits; otherwise the fault is that of the first list without an operator. -/
theorem read_by_grammar (v : Json) :
    ((∃ e, read (.ofJson v) = .ok e) ↔
      v.Formal ∧ ∀ items ∈ v.lists, Json.HasOperator items) ∧
    (∀ e, read (.ofJson v) = .ok e ↔ Reads v e) ∧
    ∀ fault, read (.ofJson v) = .error fault ↔
      (¬ v.Formal ∧ fault = .noAlternative "RawExpression") ∨
      (v.Formal ∧ ∃ items, v.lists.find? (¬ Json.HasOperator ·) = some items ∧
        fault = refusal items) := by
  rw [read_ofJson]
  refine ⟨?_, fun e ↦ ⟨reads_of_ofJson, ofJson_of_reads⟩, fun fault ↦ ?_⟩
  · rw [Draft.exists_ok_iff]
    by_cases hf : v.Formal
    · rw [fault?_ofJson hf, Option.map_eq_none_iff, List.find?_eq_none]
      simp [hf]
    · simp [ofJson_of_not_formal hf, fault?, hf]
  · rw [← fault?_eq_some]
    by_cases hf : v.Formal
    · rw [fault?_ofJson hf, Option.map_eq_some_iff]
      simp only [hf, not_true_eq_false, false_and, true_and, false_or, eq_comm]
    · rw [ofJson_of_not_formal hf]
      simp [fault?, hf, eq_comm]

/-- The outer list has an operator, and of those inside it the one around comes before the one
within and before the one behind. The message shows its number, text and list. -/
theorem nested_list_refused :
    read (.ofJson (.arr [.str "+", .int 1,
        .arr [.float 2.5, .str "a", .arr [.str "b", .int 3]], .arr [.str "c"]])) =
      .error (.refused ("expression [Number(2.5), Token(\"a\"), " ++
        "Nested([Token(\"b\"), Number(3.0)])] has no operator")) := by
  obtain ⟨-, -, hfault⟩ := read_by_grammar (.arr [.str "+", .int 1,
    .arr [.float 2.5, .str "a", .arr [.str "b", .int 3]], .arr [.str "c"]])
  exact (hfault _).mpr (.inr ⟨by decide, _, rfl, congrArg Fault.refused (by decide +kernel)⟩)

end Expression

end RiskTypology
