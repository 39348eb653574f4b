import AnchorLoss.Text.Base64
import AnchorLoss.Yaml.Node
import AnchorLoss.Yaml.Number
import AnchorLoss.Yaml.Timestamp

namespace AnchorLoss.Yaml

inductive Kind where
  | null
  | bool
  | whole
  | fraction
  | text
  | binary
  | timestamp
  | sequence
  | pairs
  | mapping
  | set
  | merge
  /-- A key whose value stands for the mapping that it is in. -/
  | default
  | unknown
deriving DecidableEq, Repr

def truthValue? : String → Option Bool
  | "yes" | "true" | "on" => some true
  | "no" | "false" | "off" => some false
  | _ => none

def isUniform (cs : List Char) : Bool :=
  cs.all Char.isLower || cs.all Char.isUpper ||
    match cs with
    | c :: cs => c.isUpper && cs.all Char.isLower
    | [] => true

def lowercase (cs : List Char) : String := String.ofList (cs.map Char.toLower)

def isTruthWord (cs : List Char) : Bool := isUniform cs && (truthValue? (lowercase cs)).isSome

def isNull (cs : List Char) : Bool :=
  cs.isEmpty || cs == ['~'] || (isUniform cs && lowercase cs == "null")

namespace Kind

def ofChars (cs : List Char) : Kind :=
  if isNull cs then null
  else if isTruthWord cs then bool
  else if isFraction cs then fraction
  else if isWhole cs then whole
  else if cs == ['<', '<'] then merge
  else if Timestamp.isPlain cs then timestamp
  else if cs == ['='] then default
  else text

def ofPlain (t : Text) : Kind :=
  match t.toChars? with
  | none => text
  | some cs => if 1 < cs.length && cs.getLast? = some '\n' then ofChars cs.dropLast else ofChars cs

def named : List (String × Kind) :=
  [("null", null), ("bool", bool), ("int", whole), ("float", fraction), ("str", text),
    ("binary", binary), ("timestamp", timestamp), ("seq", sequence), ("omap", pairs),
    ("pairs", pairs), ("map", mapping), ("set", set), ("merge", merge), ("value", default)]

/-- The kind that a tag names; a tag that names none leaves it to the form of the node. -/
def ofTag (tag : Option String) (byForm : Kind) : Kind :=
  match tag with
  | none => byForm
  | some tag =>
    if tag = nonSpecificTag then byForm
    else match named.find? fun (name, _) => commonTags ++ name == tag with
      | some (_, kind) => kind
      | none => unknown

def ofScalar (tag : Option String) (plain : Bool) (t : Text) : Kind :=
  ofTag tag (if plain || tag.isSome then ofPlain t else text)

def isCollection : Kind → Bool
  | sequence | pairs | mapping | set => true
  | _ => false

end Kind

def charsOr (e : Error) (t : Text) : Except Error (List Char) :=
  match t.toChars? with
  | some cs => .ok cs
  | none => .error e

def boolOf (cs : List Char) : Except Error Bool :=
  match truthValue? (lowercase cs) with
  | some b => .ok b
  | none => .error .noTruthValue

def bytesOf (cs : List Char) : Except Error (List UInt8) :=
  if cs.any fun c => 128 ≤ c.toNat then .error .malformed
  else match Text.Base64.decode 0 .none cs with
    | some bytes => .ok bytes
    | none => .error .malformed

def scalarValue (kind : Kind) (t : Text) : Except Error Value :=
  match kind with
  | .null => .ok .null
  | .bool => ((charsOr .noTruthValue t).bind boolOf).map .bool
  | .whole => ((charsOr .noValue t).bind wholeOf).map .int
  | .fraction => ((charsOr .noValue t).bind fractionOf).map .float
  | .text => .ok (.text t)
  | .binary => ((charsOr .malformed t).bind bytesOf).map .bytes
  | .timestamp => (charsOr .timeForm t).bind timeOf
  | .sequence | .pairs | .mapping | .set | .merge | .default | .unknown => .error .malformed

end AnchorLoss.Yaml
