import RiskTypology.Proofs.Evaluation.Weights

/-!
# Evaluation with tables

An evaluation that keeps books. The weight table is laid down under outcomes, entry by entry. One
pass over the rule results fills in their weights and puts these under their terms. The expression
is then reduced operand by operand, with the unresolved terms so far at hand. What is put where
something stands takes its place, so the last stays. The main statement: evaluating by last entries
and last results comes to the same.
-/

namespace RiskTypology

/-- Terms with their weights, by the outcomes that have them. -/
abbrev OutcomeTable := Std.HashMap (String × String × String) (String × Float)

/-- Weights by their terms. -/
abbrev TermTable := Std.HashMap String Float

namespace OutcomeTable

/-- The table of some rules: rules in order, and the weights of each in order. -/
def ofRules (rules : List RuleWeights) : OutcomeTable :=
  rules.foldl (fun table r ↦
    r.weights.foldl (fun table w ↦ table.insert (r.id, r.cfg, w.ref) (r.term, w.weight)) table) ∅

/-- Pass over rule results. One whose outcome is in the table gets its weight, and its term stands
for that weight from there on. -/
def resolve (table : OutcomeTable) : List RuleResult → TermTable → List RuleResult × TermTable
  | [], terms => ([], terms)
  | r :: rest, terms =>
    match table[r.outcome]? with
    | some (term, weight) =>
      let (rest, terms) := resolve table rest (terms.insert term weight)
      ({ r with weight := some weight } :: rest, terms)
    | none =>
      let (rest, terms) := resolve table rest terms
      (r :: rest, terms)

end OutcomeTable

namespace TermTable

mutual

/-- Reduce an expression behind the unresolved terms so far. -/
def reduce (terms : TermTable) : Expression → List String → Float × List String
  | .literal x, unresolved => (x, unresolved)
  | .term name, unresolved =>
    match terms[name]? with
    | some weight => (weight, unresolved)
    | none =>
      match termNumber? name with
      | some x => (x, unresolved)
      | none => (0.0, unresolved ++ [name])
  | .apply _ [], unresolved => (0.0, unresolved)
  | .apply op (first :: rest), unresolved =>
    let (x, unresolved) := reduce terms first unresolved
    reduceRest terms op x rest unresolved

/-- Reduce operands one after the other and take each into the running value at once. -/
def reduceRest (terms : TermTable) (op : Operator) (acc : Float) :
    List Expression → List String → Float × List String
  | [], unresolved => (acc, unresolved)
  | e :: rest, unresolved =>
    let (x, unresolved) := reduce terms e unresolved
    reduceRest terms op (op.apply acc x) rest unresolved

end

end TermTable

/-- Evaluate an expression against rule results with tables. -/
def evaluateWithTables (rules : List RuleWeights) (results : List RuleResult)
    (expression : Expression) : Evaluation :=
  let (weighed, terms) := (OutcomeTable.ofRules rules).resolve results ∅
  let (value, unresolved) := terms.reduce expression []
  ⟨value, unresolved, weighed⟩

namespace OutcomeTable

/-- Put an entry into a table. -/
def put (table : OutcomeTable) (e : WeightEntry) : OutcomeTable :=
  table.insert e.outcome (e.term, e.weight)

private theorem ofRules_eq_foldl (rules : List RuleWeights) :
    ofRules rules = (WeightEntry.ofRules rules).foldl put ∅ := by
  simp only [ofRules, WeightEntry.ofRules, List.foldl_flatMap, List.foldl_map, put,
    WeightEntry.outcome]

private theorem getElem?_foldl_put (entries : List WeightEntry) (table : OutcomeTable)
    (r : RuleResult) :
    (entries.foldl put table)[r.outcome]? =
      ((entries.findRev? (·.covers r)).map fun e ↦ (e.term, e.weight)).or table[r.outcome]? := by
  induction entries generalizing table with
  | nil => rfl
  | cons e rest ih =>
    rw [List.foldl_cons, ih, put, Std.HashMap.getElem?_insert, List.findRev?]
    cases rest.findRev? (·.covers r) with
    | some f => rfl
    | none =>
      by_cases he : e.covers r = true
      · have ho : e.outcome = r.outcome := WeightEntry.covers_iff.mp he
        simp [he, ho]
      · have ho : e.outcome ≠ r.outcome := mt WeightEntry.covers_iff.mpr he
        simp [he, ho]

/-- Of several entries for one outcome the table has the last. -/
theorem getElem?_ofRules (rules : List RuleWeights) (r : RuleResult) :
    (ofRules rules)[r.outcome]? = (findWeight? rules r).map fun e ↦ (e.term, e.weight) := by
  rw [ofRules_eq_foldl, getElem?_foldl_put, Std.HashMap.getElem?_empty, Option.or_none,
    findWeight?]

end OutcomeTable

/-- The pass fills in the weights of all results. If the table of terms is that of the results
passed before, it is afterwards that of all results. -/
theorem OutcomeTable.resolve_ofRules {rules : List RuleWeights} {done : List RuleResult}
    {terms : TermTable} (h : ∀ term, terms[term]? = termWeight? rules done term)
    (rest : List RuleResult) :
    ((ofRules rules).resolve rest terms).1 = rest.map (weigh rules) ∧
      ∀ term, ((ofRules rules).resolve rest terms).2[term]? =
        termWeight? rules (done ++ rest) term := by
  induction rest generalizing done terms with
  | nil => simpa [resolve] using h
  | cons r rest ih =>
    have hr := getElem?_ofRules rules r
    rw [List.append_cons]
    cases he : findWeight? rules r with
    | none =>
      rw [he, Option.map_none] at hr
      have hterms : ∀ term, terms[term]? = termWeight? rules (done ++ [r]) term := by
        intro term
        rw [termWeight?_concat_of_none he, h]
      simp only [resolve, hr, weigh, he, List.map_cons, ih hterms, implies_true, and_self]
    | some e =>
      rw [he, Option.map_some] at hr
      have hterms : ∀ term, (terms.insert e.term e.weight)[term]? =
          termWeight? rules (done ++ [r]) term := by
        intro term
        rw [termWeight?_concat_of_some he, Std.HashMap.getElem?_insert, h]
        simp only [beq_iff_eq]
      simp only [resolve, hr, weigh, he, List.map_cons, ih hterms, implies_true, and_self]

namespace TermTable

variable {terms : TermTable} {env : String → Option Float}

mutual

/-- Reducing gives the value, and puts the unresolved terms behind those so far. -/
theorem reduce_eq (h : ∀ term, terms[term]? = env term) (e : Expression)
    (unresolved : List String) :
    terms.reduce e unresolved = (e.value env, unresolved ++ e.unresolved env) := by
  match e with
  | .literal x => simp [reduce, Expression.value, Expression.unresolved]
  | .term name =>
    rw [reduce, h, Expression.value, Expression.unresolved]
    cases env name with
    | some weight => simp
    | none => cases termNumber? name <;> simp
  | .apply op [] =>
    simp [reduce, Expression.value, Expression.values, Expression.foldOperands,
      Expression.unresolved, Expression.unresolvedAll]
  | .apply op (first :: rest) =>
    rw [reduce, reduce_eq h first]
    simp only [reduceRest_eq h op _ rest, Expression.value, Expression.values,
      Expression.foldOperands, Expression.unresolved, Expression.unresolvedAll, List.append_assoc]

/-- Reducing operands folds their values into the running one. -/
theorem reduceRest_eq (h : ∀ term, terms[term]? = env term) (op : Operator) (acc : Float)
    (es : List Expression) (unresolved : List String) :
    terms.reduceRest op acc es unresolved =
      ((Expression.values env es).foldl op.apply acc,
        unresolved ++ Expression.unresolvedAll env es) := by
  match es with
  | [] => simp [reduceRest, Expression.values, Expression.unresolvedAll]
  | e :: rest =>
    rw [reduceRest, reduce_eq h e]
    simp only [reduceRest_eq h op _ rest, Expression.values, List.foldl_cons,
      Expression.unresolvedAll, List.append_assoc]

end

end TermTable

/-- Evaluating with tables comes to the same as evaluating by last entries and last results. -/
theorem evaluateWithTables_eq (rules : List RuleWeights) (results : List RuleResult)
    (expression : Expression) :
    evaluateWithTables rules results expression = evaluate rules results expression := by
  have hnone : ∀ term, (∅ : TermTable)[term]? = termWeight? rules [] term := by
    intro term
    rw [Std.HashMap.getElem?_empty]
    rfl
  obtain ⟨hresults, hterms⟩ := OutcomeTable.resolve_ofRules hnone results
  simp only [evaluateWithTables, evaluate, TermTable.reduce_eq hterms, hresults, List.nil_append]

end RiskTypology
