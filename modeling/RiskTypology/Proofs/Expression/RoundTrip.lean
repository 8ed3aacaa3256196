import RiskTypology.Proofs.Expression.Grammar

/-!
# Expressions there and back

Reading looks for the operator of a list wherever it stands, and writing puts it in front. The main
statement: an expression with finite literals is read back from its wire form, whatever tokens are
among its terms; and writing what was read from a value gives that value with the operator of each
list in front, where reading finds the same expression again.
-/

namespace RiskTypology

/-- Put the first item with a property in front; the others keep their order. -/
def toFront {α : Type} (p : α → Bool) (items : List α) : List α :=
  match items.find? p with
  | some x => x :: items.eraseP p
  | none => items

/-- The first item with the property goes to the front. -/
theorem toFront_append {α : Type} {p : α → Bool} {before after : List α} {x : α} (hx : p x = true)
    (h : ∀ y ∈ before, p y = false) :
    toFront p (before ++ x :: after) = x :: (before ++ after) := by
  have hfind : (before ++ x :: after).find? p = some x :=
    List.find?_eq_some_iff_append.mpr ⟨hx, before, after, rfl, fun y hy ↦ by simp [h y hy]⟩
  have hnone : ∀ y ∈ before, ¬ p y = true := fun y hy ↦ by simp [h y hy]
  rw [toFront, hfind, List.eraseP_append_right _ hnone, List.eraseP_cons_of_pos hx]

namespace Json

mutual

/-- Put the operator of every list in front, and write all numbers as floats. -/
def operatorFirst : Json → Json
  | .int i => ofFloat (Float.ofInt i)
  | .float x => ofFloat x
  | .arr items => .arr (toFront isToken (operatorFirstItems items))
  | j => j

private def operatorFirstItems : List Json → List Json
  | [] => []
  | j :: rest => j.operatorFirst :: operatorFirstItems rest

end

/-- A list has its items changed and then its operator put in front. -/
theorem operatorFirst_arr (items : List Json) :
    (arr items).operatorFirst = .arr (toFront isToken (items.map operatorFirst)) := by
  have hitems : operatorFirstItems items = items.map operatorFirst := by
    induction items with
    | nil => rfl
    | cons j rest ih => rw [operatorFirstItems, ih, List.map_cons]
  rw [operatorFirst, hitems]

/-- Tokens stay tokens, and nothing else becomes one. -/
theorem isToken_operatorFirst (j : Json) : j.operatorFirst.isToken = j.isToken := by
  have hfloat (x : Float) : (ofFloat x).isToken = false := by
    rw [ofFloat]
    split <;> rfl
  cases j with
  | int i => exact hfloat _
  | float x => exact hfloat x
  | null | bool | str | arr | obj => rfl

end Json

namespace Expression

private theorem toItems_eq_map (es : List Expression) : toItems es = es.map toJson := by
  induction es with
  | nil => rfl
  | cons e rest ih => rw [toItems, ih, List.map_cons]

/-- Writing what a value reads as gives the value with its operators in front. -/
theorem Reads.toJson_eq {j : Json} {e : Expression} (h : Reads j e) :
    e.toJson = j.operatorFirst := by
  induction j using Json.induction generalizing e with
  | int | float | str =>
    cases h
    rfl
  | null | bool | obj => cases h
  | arr items ih =>
    cases h with
    | @arr before after op operands hfirst h =>
      have hitems : before ++ after ⊆ before ++ .str op.token :: after :=
        ((List.sublist_cons_self _ _).append_left _).subset
      have hoperands : (before ++ after).map Json.operatorFirst = operands.map toJson := by
        rw [← List.forall₂_eq_eq_eq, List.forall₂_map_left_iff, List.forall₂_map_right_iff]
        exact ((List.forall₂_and_left _ _).mpr ⟨fun _ ↦ @hitems _, h⟩).imp
          fun j e hj ↦ (ih j hj.1 hj.2).symm
      have hbefore : ∀ k ∈ before.map Json.operatorFirst, k.isToken = false := by
        intro k hk
        obtain ⟨j, hj, rfl⟩ := List.mem_map.mp hk
        rw [Json.isToken_operatorFirst, Bool.eq_false_iff]
        intro ht
        obtain ⟨other, rfl⟩ := Json.isToken_iff.mp ht
        exact hfirst ⟨other, hj⟩
      have htoken : (Json.str op.token).operatorFirst.isToken = true := by
        rw [Json.isToken_operatorFirst]
        exact Json.isToken_iff.mpr ⟨op, rfl⟩
      rw [Json.operatorFirst_arr, List.map_append, List.map_cons, toFront_append htoken hbefore,
        ← List.map_append, hoperands, toJson, toItems_eq_map]
      rfl

/-- Every expression with finite literals is read back from its wire form. And writing what was
read from a value gives the value with the operator of each list in front, all else in its order
and every number a float; this reads as the same expression, and is written as it stands. -/
theorem operator_first_there_and_back :
    (∀ e : Expression, e.Finite → read (.ofJson e.toJson) = .ok e) ∧
    ∀ v : Json, v.Proper → ∀ e, read (.ofJson v) = .ok e →
      e.toJson = v.operatorFirst ∧ read (.ofJson v.operatorFirst) = .ok e ∧
        v.operatorFirst.operatorFirst = v.operatorFirst := by
  refine ⟨fun e he ↦ he.read_toJson, fun v hv e h ↦ ?_⟩
  have hback := (finite_of_read hv h).read_toJson
  rw [read_ofJson] at h
  have hwritten := (reads_of_ofJson h).toJson_eq
  rw [hwritten] at hback
  refine ⟨hwritten, hback, ?_⟩
  rw [read_ofJson] at hback
  rw [← (reads_of_ofJson hback).toJson_eq, hwritten]

private def scattered : Json :=
  .arr [.str "a", .int 2, .arr [.str "*", .str "+", .arr [.str "-"]], .str "/", .str "*"]

private def inFront : Expression :=
  .apply .divide [.term "a", .literal 2, .apply .multiply [.term "+", .apply .subtract []],
    .term "*"]

/-- Operators behind their operands, operator tokens among the terms, and an operator without
operands. -/
theorem scattered_there_and_back :
    inFront.Finite ∧ read (.ofJson inFront.toJson) = .ok inFront ∧
      scattered.Proper ∧ read (.ofJson scattered) = .ok inFront ∧
      inFront.toJson = scattered.operatorFirst ∧
      inFront.toJson = .arr [.str "/", .str "a", .float 2,
        .arr [.str "*", .str "+", .arr [.str "-"]], .str "*"] := by
  have hproper : scattered.Proper := by simp [scattered]
  have hread : read (.ofJson scattered) = .ok inFront := rfl
  have hfinite := finite_of_read hproper hread
  obtain ⟨hthere, hback⟩ := operator_first_there_and_back
  exact ⟨hfinite, hthere inFront hfinite, hproper, hread,
    (hback scattered hproper inFront hread).1, rfl⟩

end Expression
end RiskTypology
