import RiskTypology.Service.Arguments
import RiskTypology.Service.Start

/-!
# The processor

Reads its configuration and the typology definitions, and then an event a line from standard
input, each like the body of a request for processing. Every line is answered by a line with the
outcome, or with the status of a request that was turned away; notices go to standard error.
-/

namespace RiskTypology.Processor

/-- How the program is called. -/
def usage : String :=
  "Usage: processor [OPTIONS]\n\nOptions:\n" ++
  "  -c, --config <CONFIG>  Path to config file [default: " ++ Arguments.defaultConfig ++ "]\n" ++
  "  -h, --help             Print help\n  -V, --version          Print version"

/-- How deeply configuration files may include each other. -/
def includeDepth : Nat := 1000

/-- The text of a file, or why there is none. -/
def textOf (path : String) : IO (Except String String) := do
  try
    return .ok (← IO.FS.readFile path)
  catch e =>
    return .error (match e with
      | .noFileOrDirectory _ _ _ => "No such file or directory (os error 2)"
      | .inappropriateType _ _ _ => "Is a directory (os error 21)"
      | other => toString other)

/-- The line that answers a request. -/
def answerLine (r : Response) : String :=
  match r.body with
  | .outcome o => o.toJson.compress
  | .text s => s
  | .unspecified => (Json.obj [("status", .int r.status)]).compress

/-- The line of a notice. -/
def noticeLine (n : Notice) : String :=
  let part := fun (name : String) (value : Option String) ↦ match value with
    | some v => " " ++ name ++ "=" ++ v
    | none => ""
  n.level.name ++ " " ++ n.message ++ part "destination" n.destination? ++
    part "unresolved_terms" (n.unresolved?.map Text.quotedList) ++ part "error" n.error?

/-- Answer events until there are no more. -/
partial def serve (service : Service) (input : IO.FS.Stream) : IO Unit := do
  let line ← input.getLine
  if line.isEmpty then return
  let request : Request := ⟨"POST", "/execute", some "application/json", line⟩
  let (next, done) := service.handle (← IO.monoMsNow) request
  for n in Effect.notices done.effects do
    IO.eprintln (noticeLine n)
  IO.println (answerLine done.response)
  serve next input

/-- Stop with a message. -/
def fail (message : String) : IO UInt32 := do
  IO.eprintln ("Error: " ++ message)
  return 1

/-- Run with a configuration. No server can be reached from here, so every delivery fails. -/
def run (path : String) : IO UInt32 := do
  match ← Configuration.load textOf includeDepth path with
  | .error fault => fail fault.message
  | .ok c =>
    match ← Repository.load textOf c.processor.typologiesPath with
    | .error fault => fail fault.message
    | .ok repository =>
      match Service.ofConfiguration c.processor repository fun _ ↦ .unreachable with
      | .error failure => fail failure.message
      | .ok service =>
        serve service (← IO.getStdin)
        return 0

end RiskTypology.Processor

/-- Run the processor. -/
def main (arguments : List String) : IO UInt32 := do
  match RiskTypology.Arguments.ofList arguments with
  | .ok a => RiskTypology.Processor.run a.config
  | .error .helpWanted =>
    IO.println RiskTypology.Processor.usage
    return 0
  | .error .versionWanted =>
    IO.println "processor 0.1.0"
    return 0
  | .error _ =>
    IO.eprintln RiskTypology.Processor.usage
    return 2
