import RiskTypology.Draft.Plain

/-!
# Percent encoding

A part of an address holds some characters as they are and the bytes of all others as a percent
sign with two hexadecimal digits. Which ones depends on the part.
-/

namespace RiskTypology.Url

/-- Controls and everything beyond ASCII are encoded in every part. -/
def isControl (c : Char) : Bool := c.toNat < 0x20 || 0x7E < c.toNat

/-- Characters that are encoded in a fragment. -/
def inFragment (c : Char) : Bool := isControl c || " \x22<>\x60".toList.contains c

/-- Characters that are encoded in a path. -/
def inPath (c : Char) : Bool := inFragment c || "#?\x7b\x7d".toList.contains c

/-- Characters that are encoded in a name or a password. -/
def inUserInfo (c : Char) : Bool := inPath c || "/:;=@[\\]^|".toList.contains c

/-- Characters that are encoded in a query; an apostrophe only where the scheme is special. -/
def inQuery (special : Bool) (c : Char) : Bool :=
  isControl c || " \x22#<>".toList.contains c || (special && c == '\x27')

/-- An upper-case hexadecimal digit. -/
def hexDigit (n : Nat) : Char := (Nat.digitChar n).toUpper

/-- A byte with its percent sign. -/
def percent (b : UInt8) : List Char := ['%', hexDigit (b.toNat / 16), hexDigit (b.toNat % 16)]

/-- Encode the characters of a class. -/
def percentEncode (p : Char → Bool) (cs : List Char) : List Char :=
  cs.flatMap fun c ↦
    if p c then (String.singleton c).toUTF8.toList.flatMap percent else [c]

/-- The bytes of a text, with percent escapes decoded; what is no escape stays. -/
def percentBytes : List Char → List UInt8
  | '%' :: a :: b :: rest =>
    match Plain.digits? 16 [a, b] with
    | some n => n.toUInt8 :: percentBytes rest
    | none => 0x25 :: percentBytes (a :: b :: rest)
  | c :: rest => (String.singleton c).toUTF8.toList ++ percentBytes rest
  | [] => []

/-- Decode percent escapes; none when the bytes are no text. -/
def percentDecode? (cs : List Char) : Option (List Char) :=
  (String.fromUTF8? ⟨(percentBytes cs).toArray⟩).map String.toList

end RiskTypology.Url
