import Mathlib
import AnchorLoss.Binary
import AnchorLoss.Proofs.Engine.Step

namespace AnchorLoss

instance : LawfulConvert Binary where
  convert_self {p} _ := by cases p <;> rfl

namespace Tiny

def config : LossConfig Int Float where
  numClasses := 2
  maxTruths := 1
  mapSizes := [1]
  strides := [8]
  anchorSizes := [8]
  aspectRatios := [1, 4]
  iouThreshold := 0.5
  backgroundThreshold := 0.99
  negativeRatio := 3
  armDivider := 1
  epsilon := 1e-20

/-- One cell with a square and a tall anchor, and one class beside the background. -/
def detector : Detector (Wide Binary) where
  classes := 1
  maxTruths := 1
  grid := ⟨[⟨1, 8, 8⟩], [1, 4]⟩
  iouThreshold := 0.5
  backgroundThreshold := 0.99
  negativeRatio := 3
  armDivider := 1
  epsilon := 1e-20

def tall : Fin detector.numAnchors := ⟨1, by decide⟩

theorem check_config : config.check = .ok () := by
  decide +kernel

theorem ofConfig_config : Detector.ofConfig config = .ok detector := rfl

def predictions (row row' : Vector Float32 12) : Tensor (Binary .single) :=
  ⟨[1, 2, 12], (row ++ row').toArray, (row ++ row').size_toArray⟩

def zeros : Vector Float32 12 := Vector.replicate 12 0

def noOffsets : Vector Float32 12 :=
  #v[0 / 0, 0 / 0, 0 / 0, 0 / 0, 0, 0, 0 / 0, 0 / 0, 0 / 0, 0 / 0, 0, 0]

def labels : TypedTensor Binary :=
  .float .single ⟨[1, 1, 7], #[1, 0, 0, 8, 8, 0, 1], rfl⟩

def noLabels : TypedTensor Binary := .float .single ⟨[1, 1, 7], Array.replicate 7 0, rfl⟩

end Tiny

end AnchorLoss
