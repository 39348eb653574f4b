import AnchorLoss.Config.Basic

namespace AnchorLoss

inductive ConfigError where
  | check (e : CheckError)
  | conversion (e : ConversionError)
  | sectionKind (typeName : String)
  | unknownKeys (keys : List Value)
  | unsortableKeys
  | overlongKey
  | noMembership
  | noLookup
  | unknownArgument
  | pairLength

namespace Config

def sectionName : String := "loss"

def isInfix (part : List CodePoint) : List CodePoint → Bool
  | [] => part.isEmpty
  | p :: ps => part.isPrefixOf (p :: ps) || isInfix part ps

/-- The section of a document is its entry `loss`, or the whole document where it has none. Texts and lists
may mention the section but have no entries. -/
def locate (document : Value) : Except ConfigError Value :=
  match document with
  | .map entries => .ok ((Value.lookup (.ofString sectionName) entries).getD document)
  | .list items | .set items =>
    if items.any (·.sameKey (.ofString sectionName)) then .error .noLookup else .ok document
  | .text t =>
    if isInfix (Text.ofString sectionName).points t.points then .error .noLookup else .ok document
  | _ => .error .noMembership

def sectionEntries (document : Value) : Except ConfigError (List (Value × Value)) := do
  if !document.isTruthy then return []
  match ← locate document with
  | .null => .ok []
  | .map entries => .ok entries
  | other => .error (.sectionKind other.typeName)

def isKnown (key : Value) : Bool := Setting.all.any fun s => key.sameKey (.ofString s.name)

def rejectUnknown (entries : List (Value × Value)) : Except ConfigError Unit :=
  match (entries.map Prod.fst).filter (fun k => !isKnown k) with
  | [] => .ok ()
  | keys => match Value.sortKeys? keys with
    | some sorted =>
      if sorted.all Value.hasWrittenForm then .error (.unknownKeys sorted) else .error .overlongKey
    | none => .error .unsortableKeys

section Settings

variable {α : Type} (entries : List (Value × Value))

def setting (s : Setting) (convert : Value → Except ConversionError α) (fallback : α) :
    Except ConfigError α :=
  match Value.lookup (.ofString s.name) entries with
  | none => .ok fallback
  | some v => (convert v).mapError .conversion

def each (convert : Value → Except ConversionError α) (v : Value) :
    Except ConversionError (List α) :=
  v.items.bind fun items => items.mapM convert

end Settings

def ofEntries (entries : List (Value × Value)) : Except ConfigError (LossConfig Int Float) := do
  let d := LossConfig.default
  let numClasses ← setting entries .numClasses Value.toInt d.numClasses
  let maxTruths ← setting entries .maxTruths Value.toInt d.maxTruths
  let mapSizes ← setting entries .mapSizes (each Value.toInt) d.mapSizes
  let strides ← setting entries .strides (each Value.toInt) d.strides
  let anchorSizes ← setting entries .anchorSizes (each Value.toFloat) d.anchorSizes
  let aspectRatios ← setting entries .aspectRatios (each Value.toFloat) d.aspectRatios
  let iouThreshold ← setting entries .iouThreshold Value.toFloat d.iouThreshold
  let backgroundThreshold ←
    setting entries .backgroundThreshold Value.toFloat d.backgroundThreshold
  let negativeRatio ← setting entries .negativeRatio Value.toFloat d.negativeRatio
  let armDivider ← setting entries .armDivider Value.toFloat d.armDivider
  let epsilon ← setting entries .epsilon Value.toFloat d.epsilon
  .ok ⟨numClasses, maxTruths, mapSizes, strides, anchorSizes, aspectRatios, iouThreshold,
    backgroundThreshold, negativeRatio, armDivider, epsilon⟩

def read (document : Value) : Except ConfigError (LossConfig Int Float) := do
  let entries ← sectionEntries document
  rejectUnknown entries
  let c ← ofEntries entries
  c.checked.mapError .check

def defaultValues : LossConfig Value Value := LossConfig.default.map .int .float

/-- Settings given one by one and kept as they are, whole or fractional. -/
def given (arguments : List (Value × Value)) : Except ConfigError (LossConfig Value Value) := do
  if arguments.any (fun e => !isKnown e.1) then throw .unknownArgument
  let argument (s : Setting) (fallback : Value) : Value :=
    (Value.lookup (.ofString s.name) arguments).getD fallback
  let sequence (s : Setting) (fallback : List Value) : Except ConfigError (List Value) :=
    (argument s (.list fallback)).items.mapError .conversion
  let d := defaultValues
  let mapSizes ← sequence .mapSizes d.mapSizes
  let strides ← sequence .strides d.strides
  let anchorSizes ← sequence .anchorSizes d.anchorSizes
  let aspectRatios ← sequence .aspectRatios d.aspectRatios
  .ok ⟨argument .numClasses d.numClasses, argument .maxTruths d.maxTruths, mapSizes, strides,
    anchorSizes, aspectRatios, argument .iouThreshold d.iouThreshold,
    argument .backgroundThreshold d.backgroundThreshold,
    argument .negativeRatio d.negativeRatio, argument .armDivider d.armDivider,
    argument .epsilon d.epsilon⟩

def ofArguments (arguments : List (Value × Value)) : Except ConfigError (LossConfig Value Value) := do
  let c ← given arguments
  c.checked.mapError .check

def pairOf (item : Value) : Except ConfigError (Value × Value) := do
  match ← item.items.mapError .conversion with
  | [k, v] => match k with
    | .list _ | .set _ | .map _ => .error (.conversion .wrongKind)
    | _ => .ok (k, v)
  | _ => .error .pairLength

def entriesOf : Value → Except ConfigError (List (Value × Value))
  | .map entries => .ok entries
  | v => do
    let items ← v.items.mapError .conversion
    let pairs ← items.mapM pairOf
    .ok (Value.merge [] pairs)

/-- The entries of the section, which may also be written as a list of pairs. -/
def looseEntries (document : Value) : Except ConfigError (List (Value × Value)) := do
  if !document.isTruthy then return []
  let part ← locate document
  if part.isTruthy then entriesOf part else .ok []

def readOverDefaults (document : Value) : Except ConfigError (LossConfig Int Float) := do
  let entries ← looseEntries document
  read (.map (Value.merge (LossConfig.default.toEntries .int .float) entries))

inductive PropertyError where
  | unknown (values : List Value)
  | noLength

def checkProperties (values : Value) : Except PropertyError Unit :=
  if !values.isTruthy then .ok ()
  else match values.items with
    | .ok items => .error (.unknown items)
    | .error _ => .error .noLength

end Config

def Config.PropertyError.message? : Config.PropertyError → Option String
  | .unknown values =>
    some s!"Unknown loss properties count {values.length}: {(Value.list values).render}"
  | .noLength => none

def ConfigError.message? : ConfigError → Option String
  | .check (.violation v) => some v.message
  | .sectionKind t => some s!"Expected a mapping for the loss section, got <class '{t}'>"
  | .unknownKeys keys => some s!"Unknown loss configuration keys: {(Value.list keys).render}"
  | _ => none

end AnchorLoss
