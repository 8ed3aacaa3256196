import RiskTypology.Text.Blank
import RiskTypology.Text.Quoted
import RiskTypology.Yaml.Merge

/-!
# Including files

A line that begins with `!include` names another file. What the file includes is merged first, in
the order of the lines, and its own documents over that, whichever lines come first. A path is
relative to the file that names it. Of several faulty files the first in depth-first order is
told, where a file is read before the files that it includes, and its own lines are looked at
after them.
-/

namespace RiskTypology.Yaml

/-- Why a file cannot be loaded. -/
inductive IncludeFault where
  | unreadable (path reason : String)
  | malformed (path : String) (fault : ScanFault)
  | empty (path : String)
  /-- Files include each other without end. -/
  | endless (path : String)
deriving DecidableEq, Repr

namespace Include

/-- The word that begins an including line. -/
def keyword : List Char := "!include".toList

/-- Drop the keyword from the front, as often as it stands there. -/
def dropKeyword : Nat → List Char → List Char
  | 0, cs => cs
  | fuel + 1, cs =>
    if keyword.isPrefixOf cs then dropKeyword fuel (cs.drop keyword.length) else cs

/-- The path that a line includes. -/
def target? (line : List Char) : Option String :=
  let cs := Text.trimEnd (Text.trimStart line)
  if keyword.isPrefixOf cs then
    some (Text.trim (String.ofList (dropKeyword (cs.length + 1) cs)))
  else none

/-- The lines of a text, without their ends; no line follows the last end. -/
def linesOf (cs : List Char) : List (List Char) := go cs []
where
  /-- Drop a carriage return in front of a line end. -/
  strip (reversed : List Char) : List Char :=
    match reversed with
    | '\r' :: rest => rest.reverse
    | _ => reversed.reverse
  go : List Char → List Char → List (List Char)
    | [], [] => []
    | [], line => [line.reverse]
    | '\n' :: rest, line => strip line :: go rest []
    | c :: rest, line => go rest (c :: line)

/-- The paths that a text includes, in order. -/
def targets (text : String) : List String := (linesOf text.toList).filterMap target?

/-- The lines of a text that include nothing. -/
def ownText (text : String) : String :=
  let own := (linesOf text.toList).filter fun line ↦ (target? line).isNone
  String.ofList (List.intercalate ['\n'] own)

/-- Drop parts at the end of a path, last first, that name nothing: empty ones, and dots. What the
path begins with stays, be it the root or a dot. -/
def dropEmptyParts : List (List Char) → List (List Char)
  | [] => []
  | [first] => [first]
  | part :: rest => if part = [] ∨ part = ['.'] then dropEmptyParts rest else part :: rest

/-- The directory of a file. -/
def directory (path : List Char) : List Char :=
  match dropEmptyParts (path.splitOn '/').reverse with
  | [] => []
  | _ :: rest =>
    match dropEmptyParts rest with
    | [[]] => ['/']
    | shorter => List.intercalate ['/'] shorter.reverse

/-- The path of an included file, relative to the directory of the file that names it. -/
def resolve (path target : String) : String :=
  let dir := directory path.toList
  if target.toList.head? = some '/' ∨ dir = [] then target
  else if dir.getLast? = some '/' then String.ofList dir ++ target
  else String.ofList dir ++ "/" ++ target

example : resolve "./config.yaml" "base.yaml" = "./base.yaml" := by decide

/-- Merge a value over another, if there is one. -/
def mergeOver (base : Option Value) (top : Value) : Value :=
  match base with
  | some b => b.merge top
  | none => top

/-- Merge values one over the other. -/
def mergeAll (base : Option Value) (vs : List Value) : Option Value :=
  vs.foldl (fun acc v ↦ some (mergeOver acc v)) base

/-- What the own lines of a file add to what it includes. The own documents are merged among
themselves first. -/
def close (scan : String → Except ScanFault (List Value)) (path text : String)
    (included : Option Value) : Except IncludeFault Value :=
  match scan (ownText text) with
  | .error fault => .error (.malformed path fault)
  | .ok own =>
    match included, mergeAll none own with
    | _, some v => .ok (mergeOver included v)
    | some v, none => .ok v
    | none, none => .error (.empty path)

section

variable {m : Type → Type} [Monad m]

/-- Load included files one after the other, merging each over those before it. -/
def loadAll (load : String → m (Except IncludeFault Value)) (path : String) :
    Option Value → List String → m (Except IncludeFault (Option Value))
  | acc, [] => pure (.ok acc)
  | acc, target :: rest => do
    match ← load (resolve path target) with
    | .error fault => pure (.error fault)
    | .ok v => loadAll load path (some (mergeOver acc v)) rest

/-- Load a file with all it includes. `read` gives the text of a file or says why there is none,
and `scan` the documents of a text; files may be included in each other as deeply as the first
argument tells. -/
def load (read : String → m (Except String String))
    (scan : String → Except ScanFault (List Value)) :
    Nat → String → m (Except IncludeFault Value)
  | 0, path => pure (.error (.endless path))
  | depth + 1, path => do
    match ← read path with
    | .error reason => pure (.error (.unreadable path reason))
    | .ok text =>
      match ← loadAll (load read scan depth) path none (targets text) with
      | .error fault => pure (.error fault)
      | .ok included => pure (close scan path text included)

end

end Include

/-- The fault in words. -/
def IncludeFault.message : IncludeFault → String
  | .unreadable path reason => "failed to read " ++ Text.quoted path ++ ": " ++ reason
  | .malformed path _ => "failed to parse " ++ Text.quoted path
  | .empty path => Text.quoted path ++ " contains no yaml documents"
  | .endless path => Text.quoted path ++ " includes itself"

end RiskTypology.Yaml
