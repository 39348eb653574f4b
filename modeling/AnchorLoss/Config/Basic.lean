import AnchorLoss.Value

namespace AnchorLoss

/-- Settings whose counts are of type `ι` and whose real quantities are of type `ρ`. -/
structure LossConfig (ι ρ : Type) where
  numClasses : ι
  maxTruths : ι
  mapSizes : List ι
  strides : List ι
  anchorSizes : List ρ
  aspectRatios : List ρ
  iouThreshold : ρ
  backgroundThreshold : ρ
  negativeRatio : ρ
  armDivider : ρ
  epsilon : ρ

inductive Setting where
  | numClasses
  | maxTruths
  | mapSizes
  | strides
  | anchorSizes
  | aspectRatios
  | iouThreshold
  | backgroundThreshold
  | negativeRatio
  | armDivider
  | epsilon
deriving DecidableEq, Repr

namespace Setting

def all : List Setting :=
  [numClasses, maxTruths, mapSizes, strides, anchorSizes, aspectRatios, iouThreshold,
    backgroundThreshold, negativeRatio, armDivider, epsilon]

def name : Setting → String
  | numClasses => "num_classes"
  | maxTruths => "max_gt_boxes"
  | mapSizes => "feature_map_sizes"
  | strides => "strides"
  | anchorSizes => "anchor_sizes"
  | aspectRatios => "aspect_ratios"
  | iouThreshold => "positive_iou_threshold"
  | backgroundThreshold => "background_confidence_threshold"
  | negativeRatio => "negative_ratio"
  | armDivider => "arm_conf_loss_divider"
  | epsilon => "epsilon"

end Setting

/-- Quantities that can be ordered against whole numbers. The inner answer is missing for a value
that is not a number, the outer one for a value of another kind. -/
class Measure (α : Type) where
  against : α → Int → Option (Option Ordering)

instance : Measure Int where
  against x n := some (some (compare x n))

instance : Measure Float where
  against x n := some (Value.compareFloats x (Float.ofInt n))

instance : Measure Value where
  against x n := if x.isNumber then some (x.compareNumbers (.int n)) else none

inductive Violation where
  | numClasses
  | maxTruths
  | noScale
  | scaleCount
  | mapSizes
  | strides
  | anchorSizes
  | aspectRatios
  | iouThreshold
  | backgroundThreshold
  | negativeRatio
  | armDivider
  | epsilon
deriving DecidableEq, Repr

def Violation.message : Violation → String
  | numClasses => "num_classes must include background and at least one object class"
  | maxTruths => "max_gt_boxes must be a positive integer"
  | noScale => "At least one feature map scale is required"
  | scaleCount => "feature_map_sizes, strides and anchor_sizes must have the same length"
  | mapSizes => "feature_map_sizes must be positive"
  | strides => "strides must be positive"
  | anchorSizes => "anchor_sizes must be positive"
  | aspectRatios => "aspect_ratios must be a non-empty sequence of positive values"
  | iouThreshold => "positive_iou_threshold must lie in [0, 1]"
  | backgroundThreshold => "background_confidence_threshold must lie in (0, 1]"
  | negativeRatio => "negative_ratio must be non-negative"
  | armDivider => "arm_conf_loss_divider must be positive"
  | epsilon => "epsilon must be non-negative"

inductive CheckError where
  | violation (v : Violation)
  | unordered
deriving DecidableEq, Repr

namespace Measure

variable {α : Type} [Measure α]

def holds (accepted : Ordering → Bool) (n : Int) (x : α) : Except CheckError Bool :=
  match against x n with
  | none => .error .unordered
  | some order => .ok (order.any accepted)

def below (n : Int) (x : α) : Except CheckError Bool := holds (· == .lt) n x

def atMost (n : Int) (x : α) : Except CheckError Bool := holds (· != .gt) n x

def atLeast (n : Int) (x : α) : Except CheckError Bool := holds (· != .lt) n x

def above (n : Int) (x : α) : Except CheckError Bool := holds (· == .gt) n x

/-- Whether some value is at most zero, looking no further than the first one. -/
def anyNonPositive : List α → Except CheckError Bool
  | [] => .ok false
  | x :: xs => do if (← atMost 0 x) then .ok true else anyNonPositive xs

end Measure

namespace LossConfig

def refuse (v : Violation) (bad : Except CheckError Bool) : Except CheckError Unit :=
  match bad with
  | .ok true => .error (.violation v)
  | .ok false => .ok ()
  | .error e => .error e

def both (a b : Except CheckError Bool) : Except CheckError Bool :=
  match a with
  | .ok true => b
  | r => r

section Check

variable {ι ρ : Type} [Measure ι] [Measure ρ]

open AnchorLoss.Measure

/-- The conditions on the settings, in the order in which they are reported. -/
def check (c : LossConfig ι ρ) : Except CheckError Unit := do
  refuse .numClasses (below 2 c.numClasses)
  refuse .maxTruths (atMost 0 c.maxTruths)
  refuse .noScale (.ok c.mapSizes.isEmpty)
  refuse .scaleCount (.ok (!(c.mapSizes.length == c.strides.length &&
    c.strides.length == c.anchorSizes.length)))
  refuse .mapSizes (anyNonPositive c.mapSizes)
  refuse .strides (anyNonPositive c.strides)
  refuse .anchorSizes (anyNonPositive c.anchorSizes)
  refuse .aspectRatios (.ok c.aspectRatios.isEmpty)
  refuse .aspectRatios (anyNonPositive c.aspectRatios)
  refuse .iouThreshold ((both (atLeast 0 c.iouThreshold) (atMost 1 c.iouThreshold)).map not)
  refuse .backgroundThreshold
    ((both (above 0 c.backgroundThreshold) (atMost 1 c.backgroundThreshold)).map not)
  refuse .negativeRatio (below 0 c.negativeRatio)
  refuse .armDivider (atMost 0 c.armDivider)
  refuse .epsilon (below 0 c.epsilon)

def checked (c : LossConfig ι ρ) : Except CheckError (LossConfig ι ρ) := c.check.map fun _ => c

end Check

variable {ι ρ σ τ : Type}

def map (f : ι → σ) (g : ρ → τ) (c : LossConfig ι ρ) : LossConfig σ τ where
  numClasses := f c.numClasses
  maxTruths := f c.maxTruths
  mapSizes := c.mapSizes.map f
  strides := c.strides.map f
  anchorSizes := c.anchorSizes.map g
  aspectRatios := c.aspectRatios.map g
  iouThreshold := g c.iouThreshold
  backgroundThreshold := g c.backgroundThreshold
  negativeRatio := g c.negativeRatio
  armDivider := g c.armDivider
  epsilon := g c.epsilon

def default : LossConfig Int Float where
  numClasses := 21
  maxTruths := 5
  mapSizes := [28, 14, 4, 2]
  strides := [8, 16, 32, 64]
  anchorSizes := [32, 64, 128, 256]
  aspectRatios := [0.5, 1, 2]
  iouThreshold := 0.5
  backgroundThreshold := 0.99
  negativeRatio := 3
  armDivider := 1
  epsilon := 1e-20

def predictionWidth (c : LossConfig Int ρ) : Int := 10 + c.numClasses

def labelWidth (c : LossConfig Int ρ) : Int := 5 + c.numClasses

def cellCount (sizes : List Int) : Int := sizes.foldr (fun s cells => s * s + cells) 0

def numAnchors (c : LossConfig Int ρ) : Int := cellCount c.mapSizes * c.aspectRatios.length

def toEntries (count : ι → Value) (real : ρ → Value) (c : LossConfig ι ρ) : List (Value × Value) :=
  Setting.all.map fun s => (.ofString s.name, match s with
    | .numClasses => count c.numClasses
    | .maxTruths => count c.maxTruths
    | .mapSizes => .list (c.mapSizes.map count)
    | .strides => .list (c.strides.map count)
    | .anchorSizes => .list (c.anchorSizes.map real)
    | .aspectRatios => .list (c.aspectRatios.map real)
    | .iouThreshold => real c.iouThreshold
    | .backgroundThreshold => real c.backgroundThreshold
    | .negativeRatio => real c.negativeRatio
    | .armDivider => real c.armDivider
    | .epsilon => real c.epsilon)

def toMap (c : LossConfig Int Float) : Value := .map (c.toEntries .int .float)

end LossConfig

end AnchorLoss
