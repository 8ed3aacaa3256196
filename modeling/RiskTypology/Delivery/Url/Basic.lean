import RiskTypology.Delivery.Url.Host

/-!
# Addresses

An address is read from text and written in one normal form: the scheme in lower case, the host
in ASCII, no number behind it where it is the usual one, no dot segments in the path, and
everything that a part may not hold percent-encoded. Blanks around the text and line ends in it do
not count.
-/

namespace RiskTypology

/-- Where an address leads, within its scheme. -/
inductive UrlTarget where
  /-- A path on a host. -/
  | place (host : String) (number : Option Nat) (path : String)
  /-- A path without a host. -/
  | path (path : String)
  /-- Something that only the scheme can tell. -/
  | opaqueText (text : String)
deriving DecidableEq, Repr

/-- An address. -/
structure Url where
  scheme : String
  /-- Name and password, as they stand before the host. -/
  credentials : String
  target : UrlTarget
  query : Option String
  fragment : Option String
deriving DecidableEq, Repr

namespace Url

/-- Schemes whose addresses have a host and a path, with their usual numbers. -/
def usualNumbers : List (String × Nat) :=
  [("http", 80), ("https", 443), ("ws", 80), ("wss", 443), ("ftp", 21)]

/-- Whether a scheme is special. -/
def isSpecial (scheme : String) : Bool := scheme == "file" || (usualNumbers.lookup scheme).isSome

/-- Drop controls and spaces at both ends, and tabs and line ends everywhere. -/
def clean (text : String) : List Char :=
  let isEdge := fun c : Char ↦ decide (c.toNat ≤ 0x20)
  let inner := ((text.toList.dropWhile isEdge).reverse.dropWhile isEdge).reverse
  inner.filter fun c ↦ c != '\t' && c != '\n' && c != '\r'

/-- Split a scheme from what follows its colon. -/
def scheme? (cs : List Char) : Option (String × List Char) :=
  let isSchemeChar := fun c : Char ↦ c.isAlphanum || c == '+' || c == '-' || c == '.'
  match cs.takeWhile isSchemeChar, cs.dropWhile isSchemeChar with
  | c :: name, ':' :: rest =>
    if c.isAlpha then some (String.ofList ((c :: name).map Char.toLower), rest) else none
  | _, _ => none

/-- Whether a character ends the part of an address with the host. -/
def endsAuthority (special : Bool) (c : Char) : Bool :=
  c == '/' || c == '?' || c == '#' || (special && c == '\\')

/-- Split name and password from the host, at the last at sign. -/
def splitCredentials (authority : List Char) : Option (List Char) × List Char :=
  if authority.contains '@' then
    let host := (authority.reverse.takeWhile (· != '@')).reverse
    (some (authority.take (authority.length - host.length - 1)), host)
  else (none, authority)

/-- Name and password as they are written; a colon without a password is dropped. -/
def credentialsText (info : List Char) : String :=
  let name := percentEncode inUserInfo (info.takeWhile (· != ':'))
  let password := percentEncode inUserInfo ((info.dropWhile (· != ':')).drop 1)
  String.ofList (if password.isEmpty then name else name ++ ':' :: password)

/-- Split a host from what follows it; a colon in brackets belongs to the host. -/
def splitHost : Bool → List Char → List Char × List Char
  | _, [] => ([], [])
  | bracketed, c :: rest =>
    if c = ':' ∧ !bracketed then ([], c :: rest)
    else
      let inside := if c = '[' then true else if c = ']' then false else bracketed
      let (host, after) := splitHost inside rest
      (c :: host, after)

/-- Read the number behind the colon of a host; the usual one of a scheme is left out. -/
def readNumber (scheme : String) (cs : List Char) : Except UrlFault (Option Nat) :=
  let digits := cs.takeWhile Char.isDigit
  let n := (Plain.digits? 10 digits).getD 0
  if n ≤ 65535 ∧ cs.length = digits.length then
    .ok (if digits.isEmpty ∨ usualNumbers.lookup scheme = some n then none else some n)
  else .error .number

/-- Whether a segment stands for the directory itself. -/
def isSingleDot (segment : List Char) : Bool :=
  let lower := segment.map Char.toLower
  lower == ['.'] || lower == "%2e".toList

/-- Whether a segment stands for the directory above. -/
def isDoubleDot (segment : List Char) : Bool :=
  ["..", ".%2e", "%2e.", "%2e%2e"].any fun dots ↦ segment.map Char.toLower == dots.toList

/-- Resolve the dot segments of a path; segments so far come last first. -/
def resolveDots : List (List Char) → List (List Char) → List (List Char)
  | [], acc => acc.reverse
  | segment :: rest, acc =>
    if isDoubleDot segment then
      resolveDots rest (if rest.isEmpty then [] :: acc.drop 1 else acc.drop 1)
    else if isSingleDot segment then
      resolveDots rest (if rest.isEmpty then [] :: acc else acc)
    else resolveDots rest (segment :: acc)

/-- The normal form of a path, from the text behind its first slash. -/
def pathText (special : Bool) (cs : List Char) : String :=
  let cs := if special then cs.map fun c ↦ if c = '\\' then '/' else c else cs
  let segments := resolveDots (splitAt '/' cs) []
  String.ofList (segments.flatMap fun s ↦ '/' :: percentEncode inPath s)

/-- The path of an address, from the text behind its host. A special one always has a path. -/
def hostPath (special : Bool) (cs : List Char) : String :=
  match cs with
  | [] => if special then "/" else ""
  | '/' :: rest => pathText special rest
  | '\\' :: rest => pathText special (if special then rest else '\\' :: rest)
  | other => pathText special other

/-- Split a text at the query's question mark and the fragment's number sign. -/
def splitTail (cs : List Char) : List Char × Option (List Char) × Option (List Char) :=
  let body := cs.takeWhile (· != '#')
  let fragment := match cs.dropWhile (· != '#') with
    | _ :: rest => some rest
    | [] => none
  let query := match body.dropWhile (· != '?') with
    | _ :: rest => some rest
    | [] => none
  (body.takeWhile (· != '?'), query, fragment)

/-- Read host, number and path behind two slashes. -/
def readPlace (scheme : String) (cs : List Char) : Except UrlFault (String × UrlTarget) := do
  let special := isSpecial scheme
  let authority := cs.takeWhile fun c ↦ !endsAuthority special c
  let rest := cs.dropWhile fun c ↦ !endsAuthority special c
  let (info, hostPart) := splitCredentials authority
  if info = some [] ∧ hostPart.isEmpty ∧ !rest.isEmpty then throw .emptyHost
  let credentials := credentialsText (info.getD [])
  let (hostText, after) := splitHost false hostPart
  if special ∧ hostText.isEmpty then throw .emptyHost
  let host ← if special then specialHost hostText else opaqueHost hostText
  if host.isEmpty ∧ (after ≠ [] ∨ credentials ≠ "") then throw .emptyHost
  let number ← match after with
    | _ :: digits => readNumber scheme digits
    | [] => pure none
  return (credentials, .place host number (hostPath special rest))

/-- Read what follows the scheme of a file. -/
def filePlace (cs : List Char) : Except UrlFault UrlTarget :=
  let isSlash := fun c : Char ↦ c == '/' || c == '\\'
  match cs with
  | a :: b :: rest =>
    if isSlash a && isSlash b then
      let hostText := rest.takeWhile fun c ↦ !endsAuthority true c
      let path := hostPath true (rest.dropWhile fun c ↦ !endsAuthority true c)
      if hostText.isEmpty then .ok (.place "" none path)
      else match specialHost hostText with
        | .ok host => .ok (.place (if host = "localhost" then "" else host) none path)
        | .error fault => .error fault
    else .ok (.place "" none (hostPath true cs))
  | _ => .ok (.place "" none (hostPath true cs))

/-- Read credentials and target of an address. -/
def readTarget (scheme : String) (cs : List Char) : Except UrlFault (String × UrlTarget) :=
  if scheme = "file" then do return ("", ← filePlace cs)
  else if isSpecial scheme then readPlace scheme (cs.dropWhile fun c ↦ c == '/' || c == '\\')
  else match cs with
    | '/' :: '/' :: rest => readPlace scheme rest
    | '/' :: rest => .ok ("", .path (pathText false rest))
    | other => .ok ("", .opaqueText (String.ofList (percentEncode isControl other)))

/-- Read an address. -/
def parse (text : String) : Except UrlFault Url := do
  match scheme? (clean text) with
  | none => throw .relative
  | some (scheme, rest) =>
    let (body, query, fragment) := splitTail rest
    let (credentials, target) ← readTarget scheme body
    return { scheme, credentials, target
             query := query.map fun q ↦ String.ofList (percentEncode (inQuery (isSpecial scheme)) q)
             fragment := fragment.map fun f ↦ String.ofList (percentEncode inFragment f) }

/-- The text of a target, with the credentials before its host. -/
def targetText (credentials : String) : UrlTarget → String
  | .place host number path =>
    "//" ++ (if credentials.isEmpty then "" else credentials ++ "@") ++ host ++
      (match number with
        | some n => ":" ++ toString n
        | none => "") ++ path
  | .path path => if path.startsWith "//" then "/." ++ path else path
  | .opaqueText text => text

/-- The text of an address. -/
def toText (u : Url) : String :=
  u.scheme ++ ":" ++ targetText u.credentials u.target ++
    (match u.query with
      | some q => "?" ++ q
      | none => "") ++
    (match u.fragment with
      | some f => "#" ++ f
      | none => "")

/-- The address without name and password. -/
def withoutCredentials (u : Url) : Url := { u with credentials := "" }

/-- Whether a host can be named in a request. -/
def isSendable (host : String) : Bool :=
  host.toList.all fun c ↦ !("\x22\x60\x7b\x7d".toList.contains c)

/-- Whether requests can be sent to an address. -/
def isHttp (u : Url) : Bool :=
  (u.scheme == "http" || u.scheme == "https") &&
    match u.target with
    | .place host _ _ => isSendable host
    | _ => false

end Url
end RiskTypology
