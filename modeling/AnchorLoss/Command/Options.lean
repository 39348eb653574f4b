import AnchorLoss.Decimal.Numeral
import AnchorLoss.Text.Quoted

namespace AnchorLoss.Command

structure Request where
  config : Option String
  batchSize : Option Int
  numBoxes : Option Int
  seed : Option Int
  logLevel : Option String
deriving DecidableEq, Repr

def Request.default : Request := ⟨none, some 2, some 2, some 0, some "INFO"⟩

inductive Flag where
  | help
  | config
  | batchSize
  | numBoxes
  | seed
  | logLevel
deriving DecidableEq, Repr

namespace Flag

def all : List Flag := [help, config, batchSize, numBoxes, seed, logLevel]

def name : Flag → String
  | help => "--help"
  | config => "--config"
  | batchSize => "--batch-size"
  | numBoxes => "--num-boxes"
  | seed => "--seed"
  | logLevel => "--log-level"

def shortHelp : String := "-h"

def display : Flag → String
  | help => shortHelp ++ "/" ++ name help
  | f => f.name

end Flag

inductive UsageError where
  | ambiguous (word : String) (candidates : List Flag)
  | missingValue (flag : Flag)
  | malformedInteger (flag : Flag) (value : String)
  | unexpectedValue (value : String)
  | unrecognized (words : List String)
deriving DecidableEq, Repr

def UsageError.message : UsageError → String
  | ambiguous word flags =>
    s!"ambiguous option: {word} could match " ++ ", ".intercalate (flags.map Flag.name)
  | missingValue f => s!"argument {f.display}: expected one argument"
  | malformedInteger f v => s!"argument {f.display}: invalid int value: {(Text.ofString v).quoted}"
  | unexpectedValue v => s!"argument {Flag.help.display}: ignored explicit argument {(Text.ofString v).quoted}"
  | unrecognized words => "unrecognized arguments: " ++ " ".intercalate words

/-- What a word of the command line is: a plain word, an option with the value that is attached to it,
the short help with the text that is attached to it, a word that is no option although it looks like
one, or the mark after which no word is an option. -/
inductive Word where
  | plain (text : String)
  | option (flag : Flag) (value : Option String)
  | shortHelp (text : List Char)
  | unknown (text : String)
  | divider
deriving DecidableEq, Repr

def isNegativeNumber (cs : List Char) : Bool :=
  let isDigit (c : Char) : Bool := (Text.digitValue? c).isSome
  let cs := if cs.getLast? = some '\n' then cs.dropLast else cs
  match cs with
  | '-' :: body =>
    match body.dropWhile isDigit with
    | [] => !body.isEmpty
    | '.' :: fraction => !fraction.isEmpty && fraction.all isDigit
    | _ => false
  | _ => false

def splitValue (cs : List Char) : List Char × Option (List Char) :=
  match cs.dropWhile (· != '=') with
  | [] => (cs, none)
  | _ :: value => (cs.takeWhile (· != '='), some value)

def noOption (word : String) : Word :=
  let cs := word.toList
  if isNegativeNumber cs || cs.contains ' ' then .plain word else .unknown word

def longOption (word : String) : Except UsageError Word :=
  let (name, value) := splitValue word.toList
  let attached := value.map String.ofList
  match Flag.all.find? fun f => f.name.toList == name with
  | some f => .ok (.option f attached)
  | none => match Flag.all.filter fun f => name.isPrefixOf f.name.toList with
    | [] => .ok (noOption word)
    | [f] => .ok (.option f attached)
    | fs => .error (.ambiguous word fs)

def classify (word : String) : Except UsageError Word :=
  match word.toList with
  | '-' :: '-' :: _ => longOption word
  | ['-', 'h'] => .ok (.option .help none)
  | '-' :: 'h' :: '=' :: text => .ok (.shortHelp text)
  | '-' :: 'h' :: text => .ok (.shortHelp text)
  | '-' :: _ :: _ => .ok (noOption word)
  | _ => .ok (.plain word)

def classifyAll : List String → Except UsageError (List Word)
  | [] => .ok []
  | word :: words =>
    if word = "--" then .ok (.divider :: words.map .plain)
    else do
      let w ← classify word
      let ws ← classifyAll words
      .ok (w :: ws)

def checkShortHelp : List Char → Except UsageError Unit
  | ['h'] => .ok ()
  | 'h' :: text => checkShortHelp text
  | text => .error (.unexpectedValue (String.ofList text))

def integerOf (flag : Flag) (value : String) : Except UsageError Int :=
  match Decimal.integer? value with
  | some n => .ok n
  | none => .error (.malformedInteger flag value)

def Request.set (r : Request) (flag : Flag) (value : String) : Except UsageError Request :=
  match flag with
  | .help => .ok r
  | .config => .ok { r with config := some value }
  | .logLevel => .ok { r with logLevel := some value }
  | .batchSize => (integerOf flag value).map fun n => { r with batchSize := some n }
  | .numBoxes => (integerOf flag value).map fun n => { r with numBoxes := some n }
  | .seed => (integerOf flag value).map fun n => { r with seed := some n }

def Request.clear (r : Request) : Flag → Request
  | .help => r
  | .config => { r with config := none }
  | .logLevel => { r with logLevel := none }
  | .batchSize => { r with batchSize := none }
  | .numBoxes => { r with numBoxes := none }
  | .seed => { r with seed := none }

def Request.setAttached (r : Request) (flag : Flag) (value : String) : Except UsageError Request :=
  if value = "--" then .ok (r.clear flag) else r.set flag value

/-- Reads words one after the other, collecting those that belong to no option, which are reported once all
options have been read. No request comes out where help is asked for. -/
def readWords (r : Request) (extras : List String) : List Word → Except UsageError (Option Request)
  | [] => if extras.isEmpty then .ok (some r) else .error (.unrecognized extras)
  | .plain text :: ws | .unknown text :: ws => readWords r (extras ++ [text]) ws
  | .divider :: ws => readWords r (extras ++ ["--"]) ws
  | .shortHelp text :: _ => (checkShortHelp text).map fun _ => none
  | .option .help none :: _ => .ok none
  | .option .help (some value) :: _ => .error (.unexpectedValue value)
  | .option flag (some value) :: ws => do
    let r ← r.setAttached flag value
    readWords r extras ws
  | .option flag none :: .plain value :: ws => do
    let r ← r.set flag value
    readWords r extras ws
  | .option flag none :: _ => .error (.missingValue flag)

def readArguments (words : List String) : Except UsageError (Option Request) := do
  let ws ← classifyAll words
  readWords .default [] ws

end AnchorLoss.Command
