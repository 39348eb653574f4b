import AnchorLoss.Anchor.Grid
import AnchorLoss.Binary
import AnchorLoss.Config.Read

namespace AnchorLoss

namespace Value

def arith (onInt : Int → Int → Int) (onFloat : Float → Float → Float) (a b : Value) :
    Except ConversionError Value :=
  match a.wholeNumber?, b.wholeNumber? with
  | some m, some n => .ok (.int (onInt m n))
  | _, _ =>
    if a.isNumber && b.isNumber then do
      let x ← a.toFloat
      let y ← b.toFloat
      .ok (.float (onFloat x y))
    else .error .wrongKind

def add (a b : Value) : Except ConversionError Value := arith (· + ·) (· + ·) a b

def mul (a b : Value) : Except ConversionError Value := arith (· * ·) (· * ·) a b

end Value

namespace Config

structure Widths where
  prediction : Value
  label : Value
  numAnchors : Value

def widths (c : LossConfig Value Value) : Except ConversionError Widths := do
  let prediction ← Value.add (.int 10) c.numClasses
  let label ← Value.add (.int 5) c.numClasses
  let squares ← c.mapSizes.mapM fun s => Value.mul s s
  let cells ← squares.foldlM Value.add (.int 0)
  let numAnchors ← Value.mul cells (.int c.aspectRatios.length)
  .ok ⟨prediction, label, numAnchors⟩

/-- Settings as they are handed over: a document to be read, or settings checked already. -/
inductive Source where
  | document (v : Value)
  | settings (c : LossConfig Value Value)

inductive AssemblyError where
  | config (e : ConfigError)
  | property (e : PropertyError)
  | conversion (e : ConversionError)
  | form (e : GridFormError)
  | grid (e : GridError)

structure Assembly where
  config : LossConfig Value Value
  grid : Grid Float

def valuesOf (c : LossConfig Int Float) : LossConfig Value Value := c.map .int .float

def gridOf (c : LossConfig Value Value) : Except AssemblyError (Grid Float) := do
  if ¬(c.mapSizes.length = c.strides.length ∧ c.strides.length = c.anchorSizes.length) then
    throw (.form .scaleCount)
  if c.aspectRatios.isEmpty then throw (.form .noRatio)
  let convert {α : Type} (r : Except ConversionError α) : Except AssemblyError α :=
    r.mapError .conversion
  let sizes ← convert (c.mapSizes.mapM Value.toInt)
  let strides ← convert (c.strides.mapM Value.toInt)
  let anchorSizes ← convert (c.anchorSizes.mapM Value.toFloat)
  let ratios ← convert (c.aspectRatios.mapM Value.toFloat)
  for constant in [c.iouThreshold, c.backgroundThreshold, c.negativeRatio, c.epsilon] do
    let _ ← convert constant.toFloat
  return Grid.ofLists sizes strides anchorSizes ratios

/-- Puts the loss together and makes sure that its anchors can be generated. -/
def assemble (c : LossConfig Value Value) (properties : Value) : Except AssemblyError Assembly := do
  (checkProperties properties).mapError .property
  let grid ← gridOf c
  match Grid.error? (F := Binary) grid with
  | some e => throw (.grid e)
  | none => return ⟨c, grid⟩

def create (source : Source) (properties : Value) : Except AssemblyError Assembly := do
  let c ← match source with
    | .document v => (read v).map valuesOf |>.mapError .config
    | .settings c => .ok c
  assemble c properties

/-- As `create`, with the section of a document laid over the defaults first. -/
def build (source : Source) : Except AssemblyError Assembly := do
  let c ← match source with
    | .document v => (readOverDefaults v).map valuesOf |>.mapError .config
    | .settings c => .ok c
  assemble c .null

end Config

def Grid.ofValues (sizes strides anchorSizes ratios : Value) :
    Except Config.AssemblyError (Grid Float) := do
  let convert {α : Type} (r : Except ConversionError α) : Except Config.AssemblyError α :=
    r.mapError .conversion
  let a ← convert sizes.items
  let b ← convert strides.items
  if a.length ≠ b.length then throw (.form .scaleCount)
  let c ← convert anchorSizes.items
  if b.length ≠ c.length then throw (.form .scaleCount)
  if !ratios.isTruthy then throw (.form .noRatio)
  let sizes ← convert (a.mapM Value.toInt)
  let strides ← convert (b.mapM Value.toInt)
  let anchorSizes ← convert (c.mapM Value.toFloat)
  let ratios ← convert (ratios.items.bind fun r => r.mapM Value.toFloat)
  return Grid.ofLists sizes strides anchorSizes ratios

end AnchorLoss
