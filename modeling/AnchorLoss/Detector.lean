import AnchorLoss.Anchor.Grid

namespace AnchorLoss

/-- A detector of `classes` kinds of objects beside the background. -/
structure Detector (ρ : Type) where
  classes : Nat
  maxTruths : Nat
  grid : Grid ρ
  iouThreshold : ρ
  backgroundThreshold : ρ
  negativeRatio : ρ
  armDivider : ρ
  epsilon : ρ

namespace Detector

variable {ρ : Type}

def ofConfig (c : LossConfig Int ρ) : Except GridFormError (Detector ρ) :=
  (Grid.ofConfig c).map fun grid => {
    classes := (c.numClasses - 1).toNat
    maxTruths := c.maxTruths.toNat
    grid := grid
    iouThreshold := c.iouThreshold
    backgroundThreshold := c.backgroundThreshold
    negativeRatio := c.negativeRatio
    armDivider := c.armDivider
    epsilon := c.epsilon }

abbrev predictionWidth (d : Detector ρ) : Nat := 10 + (d.classes + 1)

abbrev labelWidth (d : Detector ρ) : Nat := 5 + (d.classes + 1)

abbrev numAnchors (d : Detector ρ) : Nat := d.grid.numAnchors

end Detector

end AnchorLoss
