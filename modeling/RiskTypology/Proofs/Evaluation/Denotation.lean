import Mathlib.Data.List.Forall2
import RiskTypology.Proofs.Evaluation.Tables
import RiskTypology.Proofs.Last

/-!
# What expressions denote

The meaning of an evaluation, by rules. The last entry of a weight table for an outcome gives its
term and weight, and a term has the weight of the last result with that term. Literals stand for
themselves, a term for its weight, for the number it spells if it has no weight, and otherwise for
zero. An operator takes its operands into the first, from left to right. The main statement: an
evaluation comes to exactly what the rules derive, whether it keeps tables or not.
-/

namespace RiskTypology

/-- The entry of a weight table for a result: the last for its outcome. -/
def EntryFor (rules : List RuleWeights) (r : RuleResult) : WeightEntry → Prop :=
  IsLast (·.outcome = r.outcome) (WeightEntry.ofRules rules)

/-- The weight of a term: that of the last result with an entry under the term. -/
def Weighs (rules : List RuleWeights) (results : List RuleResult) (term : String) (w : Float) :
    Prop :=
  ∃ r e, IsLast (fun s ↦ ∃ f, EntryFor rules s f ∧ f.term = term) results r ∧
    EntryFor rules r e ∧ e.weight = w

/-- A result with the weight of its entry; without an entry it stays as it is. -/
inductive Weighed (rules : List RuleWeights) (r : RuleResult) : RuleResult → Prop
  | entered {e : WeightEntry} (h : EntryFor rules r e) :
    Weighed rules r { r with weight := some e.weight }
  | absent (h : ∀ e, ¬ EntryFor rules r e) : Weighed rules r r

/-- The finite number a term spells, blanks around it aside. -/
def Spells (term : String) (x : Float) : Prop :=
  Decimal.readFloat? (Text.trim term) = some x ∧ x.isFinite = true

/-- An operator takes an operand into the running value. -/
inductive Operator.Takes : Operator → Float → Float → Float → Prop
  | add {acc x : Float} : Takes .add acc x (acc + x)
  | subtract {acc x : Float} : Takes .subtract acc x (acc - x)
  | multiply {acc x : Float} : Takes .multiply acc x (acc * x)
  | divide {acc x : Float} (h : (x == 0.0) = false) : Takes .divide acc x (acc / x)
  | keep {acc x : Float} (h : (x == 0.0) = true) : Takes .divide acc x acc

mutual

/-- The value of an expression and its unresolved terms, where terms weigh what they do. -/
inductive Denotes (weighs : String → Float → Prop) : Expression → Float → List String → Prop
  | literal {x : Float} : Denotes weighs (.literal x) x []
  | weighed {name : String} {w : Float} (h : weighs name w) : Denotes weighs (.term name) w []
  | spelled {name : String} {x : Float} (h : ∀ w, ¬ weighs name w) (hx : Spells name x) :
    Denotes weighs (.term name) x []
  | unresolved {name : String} (h : ∀ w, ¬ weighs name w) (hx : ∀ x, ¬ Spells name x) :
    Denotes weighs (.term name) 0.0 [name]
  | vacant {op : Operator} : Denotes weighs (.apply op []) 0.0 []
  | apply {op : Operator} {first : Expression} {rest : List Expression} {x y : Float}
    {us vs : List String} (hx : Denotes weighs first x us) (hy : Folds weighs op x rest y vs) :
    Denotes weighs (.apply op (first :: rest)) y (us ++ vs)

/-- Where operands take a running value, and their unresolved terms. -/
inductive Folds (weighs : String → Float → Prop) :
    Operator → Float → List Expression → Float → List String → Prop
  | nil {op : Operator} {acc : Float} : Folds weighs op acc [] acc []
  | cons {op : Operator} {acc x y z : Float} {e : Expression} {rest : List Expression}
    {us vs : List String} (hx : Denotes weighs e x us) (hy : op.Takes acc x y)
    (hz : Folds weighs op y rest z vs) : Folds weighs op acc (e :: rest) z (us ++ vs)

end

/-- A result's entry is the one that is found for it. -/
theorem entryFor_iff {rules : List RuleWeights} {r : RuleResult} {e : WeightEntry} :
    EntryFor rules r e ↔ findWeight? rules r = some e := by
  simp only [EntryFor, findWeight?, ← isLast_iff_findRev?, WeightEntry.covers_iff]

/-- A term weighs what is found for it. -/
theorem weighs_iff {rules : List RuleWeights} {results : List RuleResult} {term : String}
    {w : Float} : Weighs rules results term w ↔ termWeight? rules results term = some w := by
  have hterm (s : RuleResult) : (∃ f, findWeight? rules s = some f ∧ f.term = term) ↔
      (findWeight? rules s).any (·.term == term) = true := by
    cases findWeight? rules s <;> simp
  have hfound : termWeight? rules results term =
      ((results.findRev? fun s ↦ (findWeight? rules s).any (·.term == term)).bind
        (findWeight? rules)).map (·.weight) := by
    rw [termWeight?, List.findRev?_eq_find?_reverse, ← List.filterMap_reverse,
      List.find?_filterMap, List.findRev?_eq_find?_reverse]
  simp only [hfound, Weighs, entryFor_iff, hterm, isLast_iff_findRev?, Option.map_eq_some_iff,
    Option.bind_eq_some_iff]
  constructor
  · rintro ⟨r, e, hr, he, hw⟩
    exact ⟨e, ⟨r, hr, he⟩, hw⟩
  · rintro ⟨e, ⟨r, hr, he⟩, hw⟩
    exact ⟨r, e, hr, he, hw⟩

private theorem forall_not_iff_eq_none {α : Type} {p : α → Prop} {o : Option α}
    (h : ∀ x, p x ↔ o = some x) : (∀ x, ¬ p x) ↔ o = none := by
  simp only [h, Option.eq_none_iff_forall_ne_some, ne_eq]

/-- What becomes of a result is the result with its weight. -/
theorem weighed_iff {rules : List RuleWeights} {r s : RuleResult} :
    Weighed rules r s ↔ weigh rules r = s := by
  have habsent : (∀ e, ¬ EntryFor rules r e) ↔ findWeight? rules r = none :=
    forall_not_iff_eq_none fun _ ↦ entryFor_iff
  constructor
  · rintro (h | h)
    · simp only [weigh, entryFor_iff.mp h]
    · simp only [weigh, habsent.mp h]
  · rintro rfl
    cases hr : findWeight? rules r with
    | none =>
      simp only [weigh, hr]
      exact .absent (habsent.mpr hr)
    | some e =>
      simp only [weigh, hr]
      exact .entered (entryFor_iff.mpr hr)

/-- A term spells the number that is read from it. -/
theorem spells_iff {term : String} {x : Float} : Spells term x ↔ termNumber? term = some x := by
  rw [Spells, termNumber?, Decimal.readFinite?, Option.filter_eq_some_iff]

/-- An operator takes in its operand by being applied to it. -/
theorem Operator.takes_iff {op : Operator} {acc x y : Float} :
    op.Takes acc x y ↔ op.apply acc x = y := by
  constructor
  · rintro (_ | _ | _ | h | h)
    · rfl
    · rfl
    · rfl
    · simp only [apply, h, Bool.false_eq_true, if_false]
    · simp only [apply, h, if_true]
  · rintro rfl
    cases op with
    | add => exact .add
    | subtract => exact .subtract
    | multiply => exact .multiply
    | divide =>
      by_cases h : (x == 0.0) = true
      · simp only [apply, h, if_true]
        exact .keep h
      · simp only [apply, h]
        exact .divide (by simpa using h)

private theorem not_spells_iff {name : String} :
    (∀ x, ¬ Spells name x) ↔ termNumber? name = none :=
  forall_not_iff_eq_none fun _ ↦ spells_iff

variable {env : String → Option Float}

mutual

/-- An expression denotes its value and its unresolved terms. -/
theorem denotes_value (e : Expression) :
    Denotes (env · = some ·) e (e.value env) (e.unresolved env) := by
  match e with
  | .literal x => exact .literal
  | .term name =>
    rw [Expression.value, Expression.unresolved]
    cases hw : env name with
    | some w => exact .weighed hw
    | none =>
      have hnone : ∀ w, ¬ env name = some w := Option.eq_none_iff_forall_ne_some.mp hw
      cases hx : termNumber? name with
      | some x => exact .spelled hnone (spells_iff.mpr hx)
      | none => exact .unresolved hnone (not_spells_iff.mpr hx)
  | .apply op [] => exact .vacant
  | .apply op (first :: rest) => exact .apply (denotes_value first) (folds_values op _ rest)

/-- Operands take a running value to the fold of their values. -/
theorem folds_values (op : Operator) (acc : Float) (es : List Expression) :
    Folds (env · = some ·) op acc es ((Expression.values env es).foldl op.apply acc)
      (Expression.unresolvedAll env es) := by
  match es with
  | [] => exact .nil
  | e :: rest =>
    exact .cons (denotes_value e) (Operator.takes_iff.mpr rfl) (folds_values op _ rest)

end

mutual

/-- An expression denotes nothing else. -/
theorem Denotes.eq {e : Expression} {x : Float} {us : List String}
    (h : Denotes (env · = some ·) e x us) : e.value env = x ∧ e.unresolved env = us := by
  cases h with
  | literal => exact ⟨rfl, rfl⟩
  | weighed hw => simp [Expression.value, Expression.unresolved, hw]
  | spelled hnone hx =>
    have hw := Option.eq_none_iff_forall_ne_some.mpr hnone
    have hx := spells_iff.mp hx
    simp [Expression.value, Expression.unresolved, hw, hx]
  | unresolved hnone hx =>
    have hw := Option.eq_none_iff_forall_ne_some.mpr hnone
    have hx := not_spells_iff.mp hx
    simp [Expression.value, Expression.unresolved, hw, hx]
  | vacant => exact ⟨rfl, rfl⟩
  | apply hx hy =>
    obtain ⟨rfl, rfl⟩ := hx.eq
    obtain ⟨rfl, rfl⟩ := hy.eq
    exact ⟨rfl, rfl⟩

/-- Operands take a running value nowhere else. -/
theorem Folds.eq {op : Operator} {acc y : Float} {es : List Expression} {us : List String}
    (h : Folds (env · = some ·) op acc es y us) :
    (Expression.values env es).foldl op.apply acc = y ∧ Expression.unresolvedAll env es = us := by
  cases h with
  | nil => exact ⟨rfl, rfl⟩
  | cons hx hy hz =>
    obtain ⟨rfl, rfl⟩ := hx.eq
    obtain rfl := Operator.takes_iff.mp hy
    obtain ⟨rfl, rfl⟩ := hz.eq
    exact ⟨rfl, rfl⟩

end

/-- An evaluation comes to the value and the unresolved terms its expression denotes, and to its
results weighed, each in its place; nothing else does. Keeping tables comes to the same. -/
theorem evaluate_eq_iff_denotes (rules : List RuleWeights) (results : List RuleResult)
    (expression : Expression) :
    (∀ value unresolved weighed,
      evaluate rules results expression = ⟨value, unresolved, weighed⟩ ↔
        Denotes (Weighs rules results) expression value unresolved ∧
          List.Forall₂ (Weighed rules) results weighed) ∧
      evaluateWithTables rules results expression = evaluate rules results expression := by
  refine ⟨?_, evaluateWithTables_eq rules results expression⟩
  intro value unresolved weighed
  have hweighs : Weighs rules results = (termWeight? rules results · = some ·) := by
    funext term w
    exact propext weighs_iff
  have hweighed : Weighed rules = (weigh rules · = ·) := by
    funext r s
    exact propext weighed_iff
  have hall : List.Forall₂ (weigh rules · = ·) results weighed ↔
      results.map (weigh rules) = weighed := by
    rw [← List.forall₂_eq_eq_eq, List.forall₂_map_left_iff]
  rw [hweighs, hweighed, hall, evaluate, Evaluation.mk.injEq, ← and_assoc]
  apply and_congr_left
  intro _
  constructor
  · rintro ⟨rfl, rfl⟩
    exact denotes_value expression
  · intro h
    exact h.eq

private def weightTable : List RuleWeights :=
  [⟨"A", "1", "a", [⟨".01", 2.0⟩, ⟨".01", 3.0⟩]⟩, ⟨"B", "1", "7", [⟨".01", 5.0⟩]⟩]

private def reportedOf (id cfg : String) (weight : Option Float) : RuleResult :=
  { id := id, cfg := cfg, subRuleRef := ".01", weight := weight }

private def sumOfTerms : Expression :=
  .apply .add [.term "a", .term " 2.5 ", .term "7",
    .apply .divide [.literal 8.0, .term "x", .term "inf"], .apply .multiply [], .term "x"]

/-- A term is read as the number it spells, blanks around it aside, another that spells a number has
a weight all the same, and of those that are left unresolved one spells an infinity. The last entry
for an outcome gives its weight, and a result of another version has none. -/
theorem terms_weighed_read_and_left :
    let results := [reportedOf "A" "1" none, reportedOf "B" "1" (some 9.0), reportedOf "B" "2" none]
    let weighed := [reportedOf "A" "1" (some 3.0), reportedOf "B" "1" (some 5.0),
      reportedOf "B" "2" none]
    evaluate weightTable results sumOfTerms = ⟨18.5, ["x", "inf", "x"], weighed⟩ ∧
      Denotes (Weighs weightTable results) sumOfTerms 18.5 ["x", "inf", "x"] ∧
      List.Forall₂ (Weighed weightTable) results weighed := by
  intro results weighed
  have heval : evaluate weightTable results sumOfTerms = ⟨18.5, ["x", "inf", "x"], weighed⟩ := by
    rw [evaluate, Evaluation.mk.injEq]
    exact ⟨by decide +kernel, by decide, rfl⟩
  obtain ⟨hiff, -⟩ := evaluate_eq_iff_denotes weightTable results sumOfTerms
  exact ⟨heval, (hiff _ _ _).mp heval⟩

end RiskTypology
