import RiskTypology.Draft.Read

/-!
# Reading JSON text

Text becomes a draft in one pass. The draft stops where the text breaks the grammar; what is
grammatical but stands for no value (a number beyond the doubles, half a surrogate pair, lists and
objects nested too deeply) is marked, and is refused only by who wants to read it.
-/

namespace RiskTypology.Json

/-- Lists and objects may be nested this deeply. -/
def depthLimit : Nat := 127

/-- Blanks between tokens. -/
def isSpace (c : Char) : Bool := c == ' ' || c == '\n' || c == '\t' || c == '\r'

/-- Drop blanks at the front. -/
def skipSpace (cs : List Char) : List Char := cs.dropWhile isSpace

/-- A scanned piece of text: what it stands for and what follows it. Without anything to follow
the text broke. -/
structure Scanned (α : Type) where
  value : α
  rest : Option (List Char)

/-- A draft at which the text breaks. -/
private def broken (d : Defect) : Scanned Draft := ⟨.flawed d (some d), none⟩

/-- The rest of a fixed word. -/
def scanWord (value : Draft) : List Char → List Char → Scanned Draft
  | [], cs => ⟨value, some cs⟩
  | _ :: _, [] => broken .truncated
  | w :: word, c :: cs => if w = c then scanWord value word cs else broken .malformed

/-- Value of four hexadecimal digits; one that is short of four bytes is cut off. -/
def scanHex (cs : List Char) : Except Defect (Nat × List Char) :=
  match cs with
  | a :: b :: c :: d :: rest =>
    match Plain.digits? 16 [a, b, c, d] with
    | some n => .ok (n, rest)
    | none => .error .malformed
  | short =>
    if 4 ≤ (String.ofList short).utf8ByteSize then .error .malformed else .error .truncated

/-- The character of a one-letter escape. -/
def escape? : Char → Option Char
  | '\x22' => some '\x22'
  | '\\' => some '\\'
  | '/' => some '/'
  | 'b' => some '\x08'
  | 'f' => some '\x0c'
  | 'n' => some '\n'
  | 'r' => some '\r'
  | 't' => some '\t'
  | _ => none

/-- A scanned string. -/
inductive StringScan where
  /-- Its characters; none when half a surrogate pair is among them. -/
  | closed (text : Option String) (rest : List Char)
  /-- The text breaks inside it; half a pair before that comes first for a reader. -/
  | broken (read skip : Defect)

/-- The string breaks here. -/
private def stop (unpaired : Bool) (d : Defect) : StringScan :=
  .broken (if unpaired then .malformed else d) d

/-- Scan a string behind its opening quote. The characters so far come last first; `unpaired`
tells whether half a surrogate pair was met. -/
def scanString : Nat → List Char → List Char → Bool → StringScan
  | 0, _, _, unpaired => stop unpaired .truncated
  | _ + 1, [], _, unpaired => stop unpaired .truncated
  | fuel + 1, c :: cs, acc, unpaired =>
    if c = '\x22' then
      .closed (if unpaired then none else some (String.ofList acc.reverse)) cs
    else if c.toNat < 0x20 then stop unpaired .malformed
    else if c = '\\' then
      match cs with
      | [] => stop unpaired .truncated
      | 'u' :: more =>
        match scanHex more with
        | .error d => stop unpaired d
        | .ok (n, after) =>
          if 0xDC00 ≤ n ∧ n ≤ 0xDFFF then scanString fuel after acc true
          else if 0xD800 ≤ n ∧ n ≤ 0xDBFF then
            match after with
            | [] => stop unpaired .truncated
            | '\\' :: [] => stop unpaired .truncated
            | '\\' :: 'u' :: low =>
              match scanHex low with
              | .error d => stop unpaired d
              | .ok (m, rest) =>
                if 0xDC00 ≤ m ∧ m ≤ 0xDFFF then
                  let code := 0x10000 + (n - 0xD800) * 0x400 + (m - 0xDC00)
                  scanString fuel rest (Char.ofNat code :: acc) unpaired
                else scanString fuel rest acc true
            | _ => scanString fuel after acc true
          else scanString fuel after (Char.ofNat n :: acc) unpaired
      | e :: more =>
        match escape? e with
        | some x => scanString fuel more (x :: acc) unpaired
        | none => stop unpaired .malformed
    else scanString fuel cs (c :: acc) unpaired

/-- Take digits into a significand for as long as it stays below sixty-four bits; with it comes how
many digits are left. -/
def takeDigits (significand : Nat) : List Char → Nat × Nat
  | [] => (significand, 0)
  | d :: rest =>
    let next := 10 * significand + (d.toNat - 48)
    if next < UInt64.size then takeDigits next rest else (significand, rest.length + 1)

/-- The greatest power of ten that is a double, by its exponent. -/
def greatestPower : Nat := 308

/-- A float times a power of ten, unless that is beyond the doubles. -/
def scaleUp? (x : Float) (power : Nat) : Option Float :=
  if power ≤ greatestPower then (some (x * Float.ofScientific 1 false power)).filter Float.isFinite
  else if x == 0.0 then some x
  else none

/-- A float divided by a power of ten, by the greatest one as often as it takes. -/
def scaleDown : Nat → Float → Nat → Float
  | 0, x, _ => x
  | fuel + 1, x, power =>
    if power ≤ greatestPower then x / Float.ofScientific 1 false power
    else if x == 0.0 then x
    else scaleDown fuel (x / Float.ofScientific 1 false greatestPower) (power - greatestPower)

/-- A significand times a power of ten, reckoned in floats: where the significand or the power is no
float itself, this need not be the nearest one. -/
def floatOfParts? (significand : Nat) (exponent : Int) : Option Float :=
  let x := significand.toUInt64.toFloat
  match exponent with
  | .ofNat power => scaleUp? x power
  | .negSucc power => some (scaleDown (power + 1) x (power + 1))

/-- The draft of a number, from its parts. Whole numbers of sixty-four bits are integers, except
that minus zero is a float; a number beyond the doubles cannot be read. Digits for which the
significand has no room count as zeros before the point and not at all behind it. -/
def numberDraft (negative isWhole : Bool) (whole fraction : List Char) (exponent : Int) : Draft :=
  let (i, zeros) := takeDigits 0 whole
  let (significand, ignored) := takeDigits i fraction
  let places : Int := fraction.length - ignored
  if isWhole && !negative && zeros == 0 then .int i
  else if isWhole && negative && zeros == 0 && decide (0 < i ∧ i ≤ Nat.pow 2 63) then .int (-i)
  else match floatOfParts? significand (exponent + zeros - places) with
    | some x => .float (if negative then -x else x)
    | none => .flawed .malformed none

/-- A number that breaks off: who reads it misses what is to follow, who passes over it sees a
malformed number. -/
private def shortNumber : List Char → Scanned Draft
  | [] => ⟨.flawed .truncated (some .malformed), none⟩
  | _ :: _ => broken .malformed

/-- The exponent behind its letter. -/
def scanExponent (negative : Bool) (whole fraction cs : List Char) : Scanned Draft :=
  let (below, ds) := Decimal.spanSign cs
  match Decimal.spanDigits ds with
  | ([], rest) => shortNumber rest
  | (run, rest) =>
    let e : Int := Decimal.digitsValue run
    ⟨numberDraft negative false whole fraction (if below then -e else e), some rest⟩

/-- What may follow the digits before the exponent. -/
def scanAfterFraction (negative isWhole : Bool) (whole fraction cs : List Char) : Scanned Draft :=
  match cs with
  | 'e' :: rest => scanExponent negative whole fraction rest
  | 'E' :: rest => scanExponent negative whole fraction rest
  | rest => ⟨numberDraft negative isWhole whole fraction 0, some rest⟩

/-- Scan a number behind its sign. -/
def scanNumber (negative : Bool) (cs : List Char) : Scanned Draft :=
  match Decimal.spanDigits cs with
  | ([], rest) => shortNumber rest
  | ('0' :: _ :: _, _) => broken .malformed
  | (whole, '.' :: rest) =>
    match Decimal.spanDigits rest with
    | ([], after) => shortNumber after
    | (fraction, after) => scanAfterFraction negative false whole fraction after
  | (whole, rest) => scanAfterFraction negative true whole [] rest

/-- Lists and objects nested too deeply cannot be read, but passed over. -/
private def limit (depth : Nat) (d : Draft) : Draft :=
  if depth < depthLimit then d
  else .flawed .malformed (match d.skip with
    | .ok () => none
    | .error defect => some defect)

mutual

/-- Scan a value; `depth` counts the lists and objects around it. -/
def scanValue : Nat → Nat → List Char → Scanned Draft
  | 0, _, _ => broken .truncated
  | fuel + 1, depth, text =>
    match skipSpace text with
    | [] => broken .truncated
    | c :: cs =>
      if c = 'n' then scanWord .null "ull".toList cs
      else if c = 't' then scanWord (.bool true) "rue".toList cs
      else if c = 'f' then scanWord (.bool false) "alse".toList cs
      else if c = '-' then scanNumber true cs
      else if c.isDigit then scanNumber false (c :: cs)
      else if c = '\x22' then
        match scanString (cs.length + 1) cs [] false with
        | .closed (some s) rest => ⟨.str s, some rest⟩
        | .closed none rest => ⟨.flawed .malformed none, some rest⟩
        | .broken read skip => ⟨.flawed read (some skip), none⟩
      else if c = '[' then
        let (items, ending, rest) := scanItems fuel (depth + 1) true cs
        ⟨limit depth (.arr items ending), rest⟩
      else if c = '\x7b' then
        let (members, ending, rest) := scanMembers fuel (depth + 1) true cs
        ⟨limit depth (.obj members ending), rest⟩
      else broken .malformed

/-- Scan the items of a list behind its opening bracket or behind an item. -/
def scanItems : Nat → Nat → Bool → List Char → List Draft × Ending × Option (List Char)
  | 0, _, _, _ => ([], .broken .truncated .truncated, none)
  | fuel + 1, depth, first, text =>
    match skipSpace text with
    | [] => ([], .broken .truncated .truncated, none)
    | ']' :: rest => ([], .closed, some rest)
    | c :: cs =>
      if first || c == ',' then
        let body := if first then c :: cs else skipSpace cs
        match scanValue fuel depth body with
        | ⟨item, none⟩ => ([item], .closed, none)
        | ⟨item, some rest⟩ =>
          let (items, ending, after) := scanItems fuel depth false rest
          (item :: items, ending, after)
      else ([], .broken .malformed .malformed, none)

/-- Scan the members of an object behind its opening bracket or behind a member. -/
def scanMembers : Nat → Nat → Bool → List Char →
    List (Option String × Draft) × Ending × Option (List Char)
  | 0, _, _, _ => ([], .broken .truncated .truncated, none)
  | fuel + 1, depth, first, text =>
    match skipSpace text with
    | [] => ([], .broken .truncated .truncated, none)
    | '\x7d' :: rest => ([], .closed, some rest)
    | c :: cs =>
      if first || c == ',' then
        match if first then c :: cs else skipSpace cs with
        | '\x22' :: more =>
          match scanString (more.length + 1) more [] false with
          | .broken read skip => ([], .broken read skip, none)
          | .closed name rest =>
            match scanColon fuel depth rest with
            | ⟨value, none⟩ => ([(name, value)], .closed, none)
            | ⟨value, some after⟩ =>
              let (members, ending, final) := scanMembers fuel depth false after
              ((name, value) :: members, ending, final)
        | [] => ([], .broken .truncated .truncated, none)
        | _ :: _ => ([], .broken .malformed .malformed, none)
      else ([], .broken .malformed .malformed, none)

/-- Scan a colon and the value behind it. -/
def scanColon : Nat → Nat → List Char → Scanned Draft
  | 0, _, _ => broken .truncated
  | fuel + 1, depth, text =>
    match skipSpace text with
    | [] => broken .truncated
    | ':' :: cs => scanValue fuel depth cs
    | _ :: _ => broken .malformed

end

/-- The draft of a text, and whether anything but blanks follows it. -/
def draft (text : String) : Draft × Bool :=
  let cs := text.toList
  match scanValue (2 * cs.length + 2) 0 cs with
  | ⟨d, some rest⟩ => (d, !(skipSpace rest).isEmpty)
  | ⟨d, none⟩ => (d, false)

/-- Read a text as a value of a type. -/
def readText {α : Type} (read : Reader α) (text : String) : Except Fault α :=
  match draft text with
  | (d, trailing) => do
    let a ← read d
    if trailing then .error (.defect .malformed) else .ok a

/-- A text is read as what its draft is read as, if nothing follows it. -/
theorem readText_eq_ok {α : Type} {read : Reader α} {text : String} {a : α} :
    readText read text = .ok a ↔ ∃ d, draft text = (d, false) ∧ read d = .ok a := by
  rw [readText]
  obtain ⟨d, trailing⟩ := draft text
  rw [Draft.bind_eq_ok]
  cases trailing <;> simp

/-- Read a text as a JSON value. -/
def parse (text : String) : Except Fault Json := readText Draft.toJson text

end RiskTypology.Json
