import RiskTypology.Delivery.Url.Percent
import RiskTypology.Delivery.Url.Punycode

/-!
# Hosts

The host of an address is a domain name, an address of four bytes or one of eight words. Domain
names are brought into ASCII; a name whose last part is a number must be an address of four
bytes.
-/

namespace RiskTypology

/-- Why a text is no address. -/
inductive UrlFault where
  | emptyHost
  | international
  | number
  | fourBytes
  | eightWords
  | domainCharacter
  | relative
deriving DecidableEq, Repr

/-- The fault in words. -/
def UrlFault.message : UrlFault → String
  | .emptyHost => "empty host"
  | .international => "invalid international domain name"
  | .number => "invalid port number"
  | .fourBytes => "invalid IPv4 address"
  | .eightWords => "invalid IPv6 address"
  | .domainCharacter => "invalid domain character"
  | .relative => "relative URL without a base"

namespace Url

/-- Split a text at every occurrence of a character. -/
def splitAt (sep : Char) : List Char → List (List Char)
  | [] => [[]]
  | c :: rest =>
    if c = sep then [] :: splitAt sep rest
    else match splitAt sep rest with
      | part :: parts => (c :: part) :: parts
      | [] => [[c]]

/-! ### Domain names -/

/-- Lower case beyond ASCII, for the alphabets that have it in regular places. -/
def lowerBeyond (n : Nat) : Nat :=
  if (0xC0 ≤ n ∧ n ≤ 0xDE ∧ n ≠ 0xD7) ∨ (0x391 ≤ n ∧ n ≤ 0x3AB ∧ n ≠ 0x3A2) ∨
      (0x410 ≤ n ∧ n ≤ 0x42F) then n + 0x20
  else if 0x400 ≤ n ∧ n ≤ 0x40F then n + 0x50
  else if (0x100 ≤ n ∧ n ≤ 0x137 ∨ 0x14A ≤ n ∧ n ≤ 0x177 ∨ 0x460 ≤ n ∧ n ≤ 0x481) ∧ n % 2 = 0 then
    n + 1
  else if (0x139 ≤ n ∧ n ≤ 0x148 ∨ 0x179 ≤ n ∧ n ≤ 0x17E) ∧ n % 2 = 1 then n + 1
  else if n = 0x178 then 0xFF
  else if n = 0x17F then 0x73
  else n

/-- Characters that vanish from a domain name. -/
def isIgnored (n : Nat) : Bool :=
  n == 0xAD || n == 0x200B || n == 0x2060 || n == 0xFEFF || (0xFE00 ≤ n && n ≤ 0xFE0F)

/-- Characters beyond ASCII that no domain name may hold. -/
def isBarred (n : Nat) : Bool :=
  (0x80 ≤ n && n ≤ 0xA0) || n == 0x1680 || (0x2000 ≤ n && n ≤ 0x200A) ||
    (0x200E ≤ n && n ≤ 0x200F) || (0x2028 ≤ n && n ≤ 0x202F) || (0x205F ≤ n && n ≤ 0x206F) ||
    n == 0x3000 || (0xE000 ≤ n && n ≤ 0xF8FF) || (0xFFF0 ≤ n && n ≤ 0xFFFF) || 0xE0000 ≤ n

/-- ASCII characters that no domain name may hold. -/
def isBarredAscii (c : Char) : Bool :=
  c.toNat ≤ 0x20 || c.toNat == 0x7F || "%#/:<>?@[\\]^|".toList.contains c

/-- What a character of a domain name becomes; none when it is barred. -/
def foldChar (c : Char) : Option (List Char) :=
  let n := c.toNat
  if n < 0x80 then if isBarredAscii c then none else some [c.toLower]
  else if isIgnored n then some []
  else if n = 0x3002 ∨ n = 0xFF0E ∨ n = 0xFF61 then some ['.']
  else if 0xFF01 ≤ n ∧ n ≤ 0xFF5E then
    let ascii := Char.ofNat (n - 0xFEE0)
    if isBarredAscii ascii then none else some [ascii.toLower]
  else if isBarred n then none
  else some [Char.ofNat (lowerBeyond n)]

/-- Whether a label that claims to be encoded is what encoding gives, for a label that needs it
and that holds nothing barred. -/
def isEncoded (tail : List Char) : Bool :=
  match Punycode.decode? tail with
  | some label =>
    label.any (fun c ↦ 128 ≤ c.toNat) && label.all (fun c ↦ foldChar c == some [c]) &&
      Punycode.encode label == tail
  | none => false

/-- The ASCII form of a label. -/
def asciiLabel? (label : List Char) : Option (List Char) :=
  if label.all fun c ↦ c.toNat < 128 then
    match label with
    | 'x' :: 'n' :: '-' :: '-' :: tail => if isEncoded tail then some label else none
    | _ => some label
  else some ("xn--".toList ++ Punycode.encode label)

/-- The ASCII form of a domain name. -/
def asciiDomain? (cs : List Char) : Option (List Char) := do
  let folded := (← cs.mapM foldChar).flatten
  let labels ← (splitAt '.' folded).mapM asciiLabel?
  return List.intercalate ['.'] labels

/-! ### Addresses of four bytes -/

/-- Value of a part of an address; the inner option is empty when it is too large. -/
def byteNumber? (part : List Char) : Option (Option Nat) :=
  let (base, digits) := match part with
    | '0' :: 'x' :: rest => (16, rest)
    | '0' :: 'X' :: rest => (16, rest)
    | '0' :: c :: rest => (8, c :: rest)
    | other => (10, other)
  if part.isEmpty then none
  else if digits.isEmpty then some (some 0)
  else (Plain.digits? base digits).map fun n ↦ if n < UInt32.size then some n else none

/-- Whether the last part of a domain name, a final point aside, is a number. -/
def endsInNumber (domain : List Char) : Bool :=
  match (splitAt '.' domain).reverse with
  | [] :: last :: _ => isNumber last
  | last :: _ => isNumber last
  | [] => false
where
  isNumber (part : List Char) : Bool :=
    (!part.isEmpty && part.all Char.isDigit) || (byteNumber? part).isSome

/-- Put the parts of an address together: the last one fills all bytes that are left. -/
def joinBytes (numbers : List Nat) : Option Nat :=
  match numbers.reverse with
  | [] => none
  | last :: others =>
    let front := others.reverse
    let room := Nat.pow 256 (4 - front.length)
    if last < room ∧ front.all (· ≤ 255) then
      some (front.foldl (fun value n ↦ value * 256 + n) 0 * room + last)
    else none

/-- Read an address of four bytes. -/
def fourBytes? (domain : List Char) : Option Nat := do
  let parts := splitAt '.' domain
  let parts := if parts.getLast? = some [] then parts.dropLast else parts
  if 4 < parts.length then none
  else joinBytes (← parts.mapM fun p ↦ (byteNumber? p).join)

/-- The text of an address of four bytes. -/
def bytesText (n : Nat) : String :=
  String.intercalate "." ([3, 2, 1, 0].map fun i ↦ toString (n / Nat.pow 256 i % 256))

/-! ### Addresses of eight words -/

/-- Read a decimal byte without leading zeros. -/
def plainByte? (part : List Char) : Option Nat :=
  if part.isEmpty || !part.all Char.isDigit || (1 < part.length && part.head? == some '0') then none
  else (Plain.digits? 10 part).filter (· ≤ 255)

/-- Read the words of one side of an address; where `tail` is set the last two may be written as
four bytes. -/
def words? (tail : Bool) : List (List Char) → Option (List Nat)
  | [] => some []
  | [part] =>
    if tail && part.contains '.' then do
      let bytes ← (splitAt '.' part).mapM plainByte?
      match bytes with
      | [a, b, c, d] => some [a * 256 + b, c * 256 + d]
      | _ => none
    else if part.length ≤ 4 then (Plain.digits? 16 part).map ([·]) else none
  | part :: rest =>
    if part.length ≤ 4 then do return (← Plain.digits? 16 part) :: (← words? tail rest) else none

/-- Split an address at its first double colon. -/
def splitGap : List Char → Option (List Char × List Char)
  | ':' :: ':' :: rest => some ([], rest)
  | c :: rest => (splitGap rest).map fun (a, b) ↦ (c :: a, b)
  | [] => none

/-- The parts of a side; an empty side has none. -/
def sideParts (side : List Char) : List (List Char) := if side.isEmpty then [] else splitAt ':' side

/-- Read an address of eight words; a double colon stands for at least one word. -/
def eightWords? (cs : List Char) : Option (List Nat) :=
  match splitGap cs with
  | none => (words? true (sideParts cs)).filter (·.length == 8)
  | some (front, back) => do
    let a ← words? false (sideParts front)
    let b ← words? true (sideParts back)
    if a.length + b.length ≤ 7 then
      some (a ++ List.replicate (8 - a.length - b.length) 0 ++ b)
    else none

/-- How many zeros stand at the front. -/
def zeroRun (ws : List Nat) : Nat := (ws.takeWhile (· == 0)).length

/-- Place and length of the longest run of zeros; of equally long ones the first. -/
def longestRun (ws : List Nat) : Nat × Nat :=
  (List.range ws.length).foldl (fun best i ↦
    let n := zeroRun (ws.drop i)
    if best.2 < n then (i, n) else best) (0, 0)

/-- Words between colons. -/
def wordsText (ws : List Nat) : String :=
  String.intercalate ":" (ws.map fun w ↦ String.ofList (Nat.toDigits 16 w))

/-- The text of an address of eight words, in brackets; the longest run of zeros is left out if it
has at least two. -/
def eightWordsText (ws : List Nat) : String :=
  let (i, n) := longestRun ws
  if n < 2 then "[" ++ wordsText ws ++ "]"
  else "[" ++ wordsText (ws.take i) ++ "::" ++ wordsText (ws.drop (i + n)) ++ "]"

/-! ### Hosts -/

/-- Read an address in brackets, behind the opening one. -/
def bracketed (cs : List Char) : Except UrlFault String :=
  if cs.getLast? = some ']' then
    match eightWords? cs.dropLast with
    | some ws => .ok (eightWordsText ws)
    | none => .error .eightWords
  else .error .eightWords

/-- Read the host of a special scheme. -/
def specialHost (cs : List Char) : Except UrlFault String :=
  match cs with
  | '[' :: rest => bracketed rest
  | _ =>
    match (percentDecode? cs).bind asciiDomain? with
    | none => .error .international
    | some [] => .error .emptyHost
    | some domain =>
      if endsInNumber domain then
        match fourBytes? domain with
        | some n => .ok (bytesText n)
        | none => .error .fourBytes
      else .ok (String.ofList domain)

/-- Read the host of any other scheme. -/
def opaqueHost (cs : List Char) : Except UrlFault String :=
  match cs with
  | '[' :: rest => bracketed rest
  | _ =>
    if cs.any fun c ↦ c.toNat == 0 || " #/:<>?@[\\]^|".toList.contains c then
      .error .domainCharacter
    else .ok (String.ofList (percentEncode isControl cs))

end Url
end RiskTypology
