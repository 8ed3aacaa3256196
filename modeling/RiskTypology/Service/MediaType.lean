/-!
# Media types

Whether the content type of a request announces JSON. The whole value has to be well-formed,
parameters included, even though only type and subtype decide.
-/

namespace RiskTypology.MediaType

/-- Characters of a token. -/
def isTokenChar (c : Char) : Bool :=
  c.isAlphanum || "!#$%&'*+-.^_\x60|~".toList.contains c

/-- Characters inside a quoted parameter value. -/
def isQuotedChar (c : Char) : Bool := 31 < c.toNat && c.toNat != 127

mutual

/-- Whether parameters are well-formed; blanks may stand before each. -/
def validParameters : Nat → List Char → Bool
  | 0, _ => false
  | fuel + 1, cs =>
    match cs with
    | [] => true
    | ' ' :: rest => validParameters fuel rest
    | _ =>
      match cs.span isTokenChar with
      | (_ :: _, '=' :: '\x22' :: value) => validQuoted fuel value
      | (_ :: _, '=' :: value) =>
        match value.span isTokenChar with
        | (_, []) => true
        | (_ :: _, ';' :: rest) => validParameters fuel rest
        | _ => false
      | _ => false

/-- Whether a quoted value and the parameters behind it are well-formed. The value has at least
one character, which may itself be a quote. -/
def validQuoted : Nat → List Char → Bool
  | 0, _ => false
  | _ + 1, [] => false
  | fuel + 1, first :: cs =>
    match cs.span fun c ↦ isQuotedChar c && c != '\x22' with
    | (_, '\x22' :: rest) =>
      isQuotedChar first && match rest.dropWhile (· == ' ') with
        | [] => true
        | ';' :: more => validParameters fuel more
        | _ => false
    | _ => false

end

/-- A subtype up to its last plus sign, and the suffix behind that; a plus sign that begins it does
not count. -/
def splitSuffix : List Char → List Char × Option (List Char)
  | [] => ([], none)
  | first :: rest =>
    match rest.reverse.span (· != '+') with
    | (suffix, _ :: before) => (first :: before.reverse, some suffix.reverse)
    | (_, []) => (first :: rest, none)

/-- Whether a content type announces JSON: an application type whose subtype up to its suffix is
`json`, or that has the suffix `+json`; the case of letters does not count. -/
def isJson (value : String) : Bool :=
  let cs := value.toList
  if !(cs.all fun c ↦ c == '\t' || (0x20 ≤ c.toNat && c.toNat < 0x7F)) then false
  else match (cs.map Char.toLower).span isTokenChar with
    | (type, '/' :: rest) =>
      let (subtype, after) := rest.span isTokenChar
      let wellFormed := match after with
        | [] => true
        | ';' :: parameters =>
          !subtype.isEmpty && validParameters (2 * parameters.length + 2) parameters
        | _ => false
      let json := "json".toList
      let (base, suffix) := splitSuffix subtype
      wellFormed && type == "application".toList && (base == json || suffix == some json)
    | _ => false

end RiskTypology.MediaType
