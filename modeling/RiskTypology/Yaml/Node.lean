import RiskTypology.Yaml.Lexer

/-!
# YAML nodes

The documents of a text as trees. Aliases are replaced by what they stand for; what a scalar
means is left open.
-/

namespace RiskTypology.Yaml

/-- A tag: what its handle stands for, and the rest. -/
structure Tag where
  leading : String
  suffix : String
deriving DecidableEq, Repr

/-- What the core tags begin with. -/
def Tag.coreLeading : String := "tag:yaml.org,2002:"

/-- A node of a document. -/
inductive Node where
  /-- Nothing was written. -/
  | empty
  | scalar (style : Style) (tag : Option Tag) (text : String)
  | sequence (items : List Node)
  | mapping (entries : List (Node × Node))
  /-- An alias inside the very node that it stands for. -/
  | unfinished

namespace Node

/-- Tokens that are still to be taken, and what was declared so far. -/
structure Source where
  version : Version
  tokens : List Token
  handles : List (String × String) := []
  /-- Anchored nodes, newest first. -/
  anchors : List (String × Node) := []

/-- Taking tokens. -/
abbrev Take := StateT Source (Except ScanFault)

/-- The next token. -/
def peek : Take (Option Token) := return (← get).tokens.head?

/-- Pass over the next token. -/
def advance : Take Unit := modify fun s ↦ { s with tokens := s.tokens.drop 1 }

/-- Whether the next token is one of some. -/
def isNext (ts : List Token) : Take Bool := do
  match ← peek with
  | some t => return ts.contains t
  | none => return false

/-- Pass over a token if it is the next one. -/
def accept (t : Token) : Take Bool := do
  if ← isNext [t] then
    advance
    return true
  else return false

/-- Resolve a tag by its handle. -/
def resolveTag (handle suffix : String) : Take Tag := do
  let s ← get
  match s.handles.lookup handle with
  | some leading => return ⟨leading, suffix⟩
  | none =>
    if handle == "!!" then return ⟨Tag.coreLeading, suffix⟩
    else if Token.isNamed handle.toList then throw .tag
    else return ⟨handle, suffix⟩

/-- A tag, if the next token is one. -/
def takeTag : Take (Option Tag) := do
  match ← peek with
  | some (.tag handle suffix) =>
    advance
    return some (← resolveTag handle suffix)
  | _ => return none

/-- The name of an anchor, if the next token is one. Until its node is finished the anchor stands
for an unfinished one. -/
def takeAnchor : Take (Option Nat) := do
  match ← peek with
  | some (.anchor name) =>
    advance
    let place := (← get).anchors.length
    modify fun s ↦ { s with anchors := (name, .unfinished) :: s.anchors }
    return some place
  | _ => return none

/-- Tag and anchor of a node, in any order; of the anchor its place. -/
def takeProperties : Take (Option Tag × Option Nat) := do
  match ← takeAnchor with
  | some place => return (← takeTag, some place)
  | none =>
    match ← takeTag with
    | some tag => return (some tag, ← takeAnchor)
    | none => return (none, none)

/-- Let an anchor stand for its finished node. -/
def bindAnchor (place : Option Nat) (n : Node) : Take Unit :=
  match place with
  | none => return ()
  | some place => modify fun s ↦
    let back := s.anchors.length - 1 - place
    { s with anchors := s.anchors.modify back fun a ↦ (a.1, n) }

/-- What an alias stands for. -/
def dereference (name : String) : Take Node := do
  match (← get).anchors.lookup name with
  | some n => return n
  | none => throw .unknownAnchor

/-- What may end an empty entry of a block mapping. -/
private def mappingStops : List Token := [.key, .value, .blockEnd]

mutual

/-- Take a node; `block` tells whether block collections may begin here, and `indentless` whether
a sequence may that is not indented. -/
def take : Nat → Bool → Bool → Take Node
  | 0, _, _ => throw .nesting
  | fuel + 1, block, indentless => do
    match ← peek with
    | some (.alias name) =>
      advance
      dereference name
    | _ =>
      let (tag, place) ← takeProperties
      let n ← takeContent fuel block indentless tag (tag.isSome || place.isSome)
      bindAnchor place n
      return n

/-- Take what stands behind tag and anchor; when there are any, it may be nothing. -/
def takeContent : Nat → Bool → Bool → Option Tag → Bool → Take Node
  | 0, _, _, _, _ => throw .nesting
  | fuel + 1, block, indentless, tag, hasProperties => do
    match ← peek with
    | some (.scalar style text) =>
      advance
      return .scalar style tag text
    | some .flowSequence =>
      advance
      return .sequence (← flowItems fuel true)
    | some .flowMapping =>
      advance
      return .mapping (← flowEntries fuel true)
    | t =>
      if indentless && t == some .blockEntry then return .sequence (← indentlessItems fuel)
      else if block && t == some .blockSequence then
        advance
        return .sequence (← blockItems fuel)
      else if block && t == some .blockMapping then
        advance
        return .mapping (← blockEntries fuel)
      else if hasProperties then return .scalar .plain tag ""
      else throw .nesting

/-- Take a node unless one of some tokens is next. -/
def takeUnless : Nat → List Token → Bool → Bool → Take Node
  | 0, _, _, _ => throw .nesting
  | fuel + 1, stops, block, indentless => do
    if ← isNext stops then return .empty else take fuel block indentless

/-- Take a value if a colon is next. -/
def takeValue : Nat → List Token → Bool → Take Node
  | 0, _, _ => throw .nesting
  | fuel + 1, stops, block => do
    if ← accept .value then takeUnless fuel stops block block else return .empty

/-- Take the items of a block sequence. -/
def blockItems : Nat → Take (List Node)
  | 0 => throw .nesting
  | fuel + 1 => do
    if ← accept .blockEnd then return []
    if !(← accept .blockEntry) then throw .nesting
    let item ← takeUnless fuel [.blockEntry, .blockEnd] true false
    return item :: (← blockItems fuel)

/-- Take the items of a sequence that is not indented. -/
def indentlessItems : Nat → Take (List Node)
  | 0 => throw .nesting
  | fuel + 1 => do
    if !(← accept .blockEntry) then return []
    let item ← takeUnless fuel (.blockEntry :: mappingStops) true false
    return item :: (← indentlessItems fuel)

/-- Take the entries of a block mapping. -/
def blockEntries : Nat → Take (List (Node × Node))
  | 0 => throw .nesting
  | fuel + 1 => do
    if ← accept .blockEnd then return []
    let key ← takeKey fuel mappingStops true
    let value ← takeValue fuel mappingStops true
    return (key, value) :: (← blockEntries fuel)

/-- Take a key; in the newer version it may be missing before its colon. -/
def takeKey : Nat → List Token → Bool → Take Node
  | 0, _, _ => throw .nesting
  | fuel + 1, stops, block => do
    if ← accept .key then takeUnless fuel stops block block
    else if (← get).version == .v12 && (← isNext [.value]) then return .empty
    else throw .nesting

/-- Take the items of a flow sequence; an item with a colon is a mapping of one entry. -/
def flowItems : Nat → Bool → Take (List Node)
  | 0, _ => throw .nesting
  | fuel + 1, first => do
    if ← accept .flowSequenceEnd then return []
    if !first then
      if !(← accept .flowEntry) then throw .nesting
      if ← accept .flowSequenceEnd then return []
    if ← isNext [.key, .value] then
      let key ← takeKey fuel [.value, .flowEntry, .flowSequenceEnd] false
      let value ← takeValue fuel [.flowEntry, .flowSequenceEnd] false
      return .mapping [(key, value)] :: (← flowItems fuel false)
    else
      let item ← take fuel false false
      return item :: (← flowItems fuel false)

/-- Take the entries of a flow mapping; an entry without a colon has no value. -/
def flowEntries : Nat → Bool → Take (List (Node × Node))
  | 0, _ => throw .nesting
  | fuel + 1, first => do
    if ← accept .flowMappingEnd then return []
    if !first then
      if !(← accept .flowEntry) then throw .nesting
      if ← accept .flowMappingEnd then return []
    if ← isNext [.key, .value] then
      let key ← takeKey fuel [.value, .flowEntry, .flowMappingEnd] false
      let value ← takeValue fuel [.flowEntry, .flowMappingEnd] false
      return (key, value) :: (← flowEntries fuel false)
    else
      let key ← take fuel false false
      return (key, .empty) :: (← flowEntries fuel false)

end

/-- Take the directives in front of a document. -/
def takeDirectives : Nat → Bool → List (String × String) → Take Unit
  | 0, _, _ => throw .directive
  | fuel + 1, versioned, handles => do
    match ← peek with
    | some .version =>
      if versioned then throw .directive
      advance
      takeDirectives fuel true handles
    | some (.tagHandle handle leading) =>
      if (handles.lookup handle).isSome then throw .directive
      advance
      takeDirectives fuel versioned ((handle, leading) :: handles)
    | _ => modify fun s ↦ { s with handles }

/-- Whether a directive is next. -/
def isDirectiveNext : Take Bool := do
  match ← peek with
  | some .version => return true
  | some (.tagHandle _ _) => return true
  | _ => return false

/-- Take a document behind its start. -/
def takeDocument (fuel : Nat) : Take Node := do
  if (← peek).isNone || (← isDirectiveNext) || (← isNext [.documentStart, .documentEnd]) then
    return .empty
  else take fuel true false

/-- Take all documents; `bare` tells whether one may begin without a marker. -/
def takeDocuments : Nat → Bool → Take (List Node)
  | 0, _ => throw .nesting
  | fuel + 1, bare => do
    if ← accept .documentEnd then takeDocuments fuel bare
    else if (← peek).isNone then return []
    else
      modify fun s ↦ { s with handles := [], anchors := [] }
      let directed ← isDirectiveNext
      takeDirectives (fuel + 1) false []
      let marked ← accept .documentStart
      if !marked && (directed || !bare) then throw .nesting
      let n ← if marked then takeDocument fuel else take fuel true false
      let ended ← accept .documentEnd
      if !ended && (← isDirectiveNext) then throw .directive
      return n :: (← takeDocuments fuel ended)

end Node

/-- The documents of a text. -/
def Node.ofText (version : Version) (text : String) : Except ScanFault (List Node) := do
  let tokens ← Token.ofText version text
  let (documents, _) ← (Node.takeDocuments (4 * tokens.length + 8) true).run { version, tokens }
  return documents

end RiskTypology.Yaml
