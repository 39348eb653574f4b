import AnchorLoss.Config.Read
import AnchorLoss.Yaml.Document

namespace AnchorLoss.Config

inductive FileError where
  | missing
  | unreadable (e : Yaml.Error)
  | rootKind (typeName : String)
deriving DecidableEq, Repr

def FileError.message? : FileError → Option String
  | .rootKind t => some s!"Expected dict at root of config, got <class '{t}'>"
  | .missing | .unreadable _ => none

def ofFile (text : Option String) : Except FileError Value :=
  match text with
  | none => .error .missing
  | some text => match Yaml.parse text with
    | .error e => .error (.unreadable e)
    | .ok v =>
      if !v.isTruthy then .ok (.map [])
      else match v with
        | .map entries => .ok (.map entries)
        | v => .error (.rootKind v.typeName)

end AnchorLoss.Config
