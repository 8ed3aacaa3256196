/-!
# Command-line arguments

The service takes one option, the path of its configuration, and answers requests for help and
for its version. An option's value may be attached or be the next argument. A value that is the
next argument is settled only when the next option asks for it or the arguments end, so a later
unknown argument is told before a repeated option.
-/

namespace RiskTypology

/-- What the arguments can ask for besides running, and what can be wrong with them. -/
inductive ArgumentProblem where
  | helpWanted
  | versionWanted
  | unknown
  | valueMissing
  | valueUnwanted
  | repeated
deriving DecidableEq, Repr

/-- What the service is run with. -/
structure Arguments where
  /-- The path of the configuration. -/
  config : String
deriving DecidableEq, Repr

namespace Arguments

/-- The configuration that is used when none is given. -/
def defaultConfig : String := "typology/config/dev.yaml"

/-- What was read so far. -/
structure Progress where
  /-- The settled path. -/
  config : Option String := none
  /-- An option that was named and not settled yet, with its value if that was seen. -/
  pending : Option (Option String) := none
deriving DecidableEq, Repr

namespace Progress

/-- Settle on a path. -/
def assign (p : Progress) (value : String) : Except ArgumentProblem Progress :=
  if p.config.isSome then .error .repeated else .ok ⟨some value, none⟩

/-- Settle what is pending. -/
def settle (p : Progress) : Except ArgumentProblem Progress :=
  match p.pending with
  | none => .ok p
  | some none => .error .valueMissing
  | some (some value) => p.assign value

/-- Stop with a problem once everything before it is settled. -/
def stop (p : Progress) (problem : ArgumentProblem) : Except ArgumentProblem Progress := do
  let _ ← p.settle
  .error problem

/-- The path option, with a value attached or to come. -/
def option (p : Progress) (value : Option String) : Except ArgumentProblem Progress := do
  let settled ← p.settle
  match value with
  | some v => settled.assign v
  | none => return { settled with pending := some none }

/-- An option that was named in full. -/
def long (p : Progress) (text : List Char) : Except ArgumentProblem Progress :=
  let name := String.ofList (text.takeWhile (· != '='))
  let value := match text.dropWhile (· != '=') with
    | _ :: v => some (String.ofList v)
    | [] => none
  if name = "config" then p.option value
  else if name = "help" then if value.isSome then .error .valueUnwanted else p.stop .helpWanted
  else if name = "version" then
    if value.isSome then .error .valueUnwanted else p.stop .versionWanted
  else .error .unknown

/-- An option that was named by its letter; what follows the letter is its value. -/
def short (p : Progress) (letter : Char) (text : List Char) : Except ArgumentProblem Progress :=
  match letter with
  | 'c' => match text with
    | [] => p.option none
    | '=' :: value => p.option (some (String.ofList value))
    | value => p.option (some (String.ofList value))
  | 'h' => p.stop .helpWanted
  | 'V' => p.stop .versionWanted
  | _ => .error .unknown

/-- An argument that is no option: the value of a pending one. -/
def value (p : Progress) (text : String) : Except ArgumentProblem Progress :=
  match p.pending with
  | some none => .ok { p with pending := some (some text) }
  | _ => .error .unknown

end Progress

/-- Read arguments one by one; behind two dashes nothing may follow. -/
def readFrom (p : Progress) : List String → Except ArgumentProblem Progress
  | [] => p.settle
  | argument :: rest =>
    match argument.toList with
    | ['-', '-'] => if rest.isEmpty then p.settle else .error .unknown
    | '-' :: '-' :: text => do readFrom (← p.long text) rest
    | '-' :: letter :: text => do readFrom (← p.short letter text) rest
    | _ => do readFrom (← p.value argument) rest

/-- Read the arguments behind the program's name. -/
def ofList (arguments : List String) : Except ArgumentProblem Arguments := do
  let p ← readFrom {} arguments
  return ⟨p.config.getD defaultConfig⟩

end Arguments
end RiskTypology
