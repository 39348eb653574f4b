import AnchorLoss.Command.Run

namespace AnchorLoss.Command

def RunError.text : RunError → String
  | .noLevel => "No level is given"
  | .level .text => "Unknown level"
  | .level .table => "Level not an integer or a valid string"
  | .file e => e.message?.getD (match e with
    | .missing => "Config file not found"
    | _ => "The configuration file cannot be read")
  | .config e => e.message?.getD "A configured value cannot be converted"
  | .form e => e.message
  | .grid _ | .forward (.grid _) => "The anchors cannot be generated"
  | .seed => "The seed is out of range"
  | .noNumber => "A number of images or of boxes is missing"
  | .synthetic _ => "The synthetic batch cannot be drawn"
  | .forward (.shape e) => e.message
  | .forward (.mining _) => "The number of negatives is not finite"
  | .backward e => e.message?.getD "The gradient does not fit"

def Event.line (e : Event Float) : String :=
  e.level.name ++ " | " ++ e.channel.name ++ " | " ++ e.text

def readText (path : String) : IO (Option String) := do
  try return some (← IO.FS.readFile path)
  catch _ => return none

end AnchorLoss.Command

open AnchorLoss.Command in
def main (words : List String) : IO UInt32 := do
  let path? := match readArguments words with
    | .ok (some r) => r.config
    | _ => none
  let text ← match path? with
    | some path => readText path
    | none => pure none
  let report := run (fun _ => text) words
  for e in report.events do
    IO.eprintln (Event.line e)
  match report.ending with
  | .finished | .help => return 0
  | .usage e =>
    IO.eprintln s!"error: {e.message}"
    return 2
  | .failed e =>
    IO.eprintln s!"error: {e.text}"
    return 1
