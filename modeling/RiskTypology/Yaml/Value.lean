import RiskTypology.Yaml.Node

/-!
# YAML values

What the nodes of a document mean. Plain scalars without a tag are null, truth values, integers of
sixty-four bits or reals if they are written like one, and text otherwise; a real keeps its
spelling. The entries of a mapping keep their order, and no key comes twice.
-/

namespace RiskTypology.Yaml

/-- A value. -/
inductive Value where
  | null
  | bool (b : Bool)
  | int (i : Int)
  | real (text : String)
  | str (s : String)
  | list (items : List Value)
  | map (entries : List (Value × Value))
  /-- A scalar that does not fit its tag. -/
  | bad

namespace Value

mutual

/-- Whether two values are the same. -/
def same : Value → Value → Bool
  | .null, .null => true
  | .bool a, .bool b => a == b
  | .int a, .int b => a == b
  | .real a, .real b => a == b
  | .str a, .str b => a == b
  | .list a, .list b => sameItems a b
  | .map a, .map b => sameEntries a b
  | .bad, .bad => true
  | _, _ => false

/-- Whether two lists hold the same values. -/
def sameItems : List Value → List Value → Bool
  | [], [] => true
  | a :: as, b :: bs => same a b && sameItems as bs
  | _, _ => false

/-- Whether two mappings have the same entries in the same order. -/
def sameEntries : List (Value × Value) → List (Value × Value) → Bool
  | [], [] => true
  | (k, a) :: as, (l, b) :: bs => same k l && same a b && sameEntries as bs
  | _, _ => false

end

mutual

/-- Sameness is equality. -/
theorem same_iff : ∀ a b : Value, same a b = true ↔ a = b
  | .null, b => by cases b <;> simp [same]
  | .bool _, b => by cases b <;> simp [same]
  | .int _, b => by cases b <;> simp [same]
  | .real _, b => by cases b <;> simp [same]
  | .str _, b => by cases b <;> simp [same]
  | .bad, b => by cases b <;> simp [same]
  | .list as, b => by
    cases b <;> simp [same]
    exact sameItems_iff as _
  | .map as, b => by
    cases b <;> simp [same]
    exact sameEntries_iff as _

private theorem sameItems_iff : ∀ as bs : List Value, sameItems as bs = true ↔ as = bs
  | [], bs => by cases bs <;> simp [sameItems]
  | a :: as, bs => by
    cases bs with
    | nil => simp [sameItems]
    | cons b bs => simp [sameItems, same_iff a b, sameItems_iff as bs]

private theorem sameEntries_iff :
    ∀ as bs : List (Value × Value), sameEntries as bs = true ↔ as = bs
  | [], bs => by cases bs <;> simp [sameEntries]
  | (k, a) :: as, bs => by
    cases bs with
    | nil => simp [sameEntries]
    | cons b bs =>
      obtain ⟨l, b⟩ := b
      simp [sameEntries, same_iff k l, same_iff a b, sameEntries_iff as bs]

end

/-- Values are told apart by comparing them part by part. -/
instance : DecidableEq Value := fun a b ↦ decidable_of_iff _ (same_iff a b)

/-- A signed integer of sixty-four bits, in digits of a base. -/
def int? (base : Nat) (cs : List Char) : Option Int :=
  let i := match Plain.sign cs with
    | (some '-', ds) => (Plain.digits? base ds).map fun n ↦ -(n : Int)
    | (_, ds) => (Plain.digits? base ds).map Int.ofNat
  i.filter fun i ↦ -(Nat.pow 2 63 : Int) ≤ i ∧ i < Nat.pow 2 63

/-- An integer in one of its spellings: hexadecimal, octal, or decimal. -/
def spelledInt? (s : String) : Option Int :=
  let based := match s.toList with
    | '0' :: 'x' :: rest => int? 16 rest
    | '0' :: 'o' :: rest => int? 8 rest
    | '+' :: rest => int? 10 rest
    | _ => none
  based.orElse fun _ ↦ int? 10 s.toList

/-- Whether a text spells a real number. -/
def isReal (s : String) : Bool :=
  let special := [".inf", ".Inf", ".INF", "+.inf", "+.Inf", "+.INF", "-.inf", "-.Inf", "-.INF",
    ".nan", ".NaN", ".NAN"]
  special.contains s || (s.toList.any Char.isDigit && (Decimal.readFloat? s).isSome)

/-- What a plain scalar without a tag means. -/
def ofPlain (s : String) : Value :=
  match spelledInt? s with
  | some i => .int i
  | none =>
    if s == "~" || s == "null" then .null
    else if s == "true" || s == "True" || s == "TRUE" then .bool true
    else if s == "false" || s == "False" || s == "FALSE" then .bool false
    else if isReal s then .real s
    else .str s

/-- What a plain scalar with a tag means. -/
def ofTagged (tag : Tag) (s : String) : Value :=
  if tag.leading != Tag.coreLeading then .str s
  else match tag.suffix with
    | "bool" => if s == "true" then .bool true else if s == "false" then .bool false else .bad
    | "int" => ((int? 10 s.toList).map .int).getD .bad
    | "float" => if isReal s then .real s else .bad
    | "null" => if s == "~" || s == "null" then .null else .bad
    | _ => .str s

/-- Pair keys with values. A key that is bad is passed over, so that its value is the next key;
a key without a value is dropped. -/
def pair : Option Value → List Value → List (Value × Value) →
    Except ScanFault (List (Value × Value))
  | _, [], entries => .ok entries
  | none, v :: rest, entries => pair (if v = .bad then none else some v) rest entries
  | some k, v :: rest, entries =>
    if entries.any fun e ↦ e.1 = k then .error .repeatedKey
    else pair none rest (entries ++ [(k, v)])

mutual

/-- What a node means. -/
def ofNode : Node → Except ScanFault Value
  | .empty => .ok .null
  | .unfinished => .ok .bad
  | .scalar .plain none s => .ok (ofPlain s)
  | .scalar .plain (some tag) s => .ok (ofTagged tag s)
  | .scalar _ _ s => .ok (.str s)
  | .sequence items => do return .list (← ofNodes items)
  | .mapping entries => do return .map (← pair none (← ofEntries entries) [])

/-- What the nodes of a sequence mean. -/
def ofNodes : List Node → Except ScanFault (List Value)
  | [] => .ok []
  | n :: rest => do return (← ofNode n) :: (← ofNodes rest)

/-- What the keys and values of a mapping mean, in turn. -/
def ofEntries : List (Node × Node) → Except ScanFault (List Value)
  | [] => .ok []
  | (k, v) :: rest => do return (← ofNode k) :: (← ofNode v) :: (← ofEntries rest)

end

/-- The documents of a text. -/
def documents (text : String) : Except ScanFault (List Value) := do
  ofNodes (← Node.ofText .v12 text)

end Value
end RiskTypology.Yaml
