import AnchorLoss.Engine
import AnchorLoss.Random.Source

namespace AnchorLoss

open Scalar

/-- What is drawn for one box: its size, its place as shares of the room that the size leaves in the
image, and its class. -/
structure BoxDraw (α : Type) where
  size : Axes α
  place : Axes α
  label : Nat

def BoxDraw.corners {α : Type} [Scalar α] (side : α) (b : BoxDraw α) : Corners α where
  low := b.place.zipWith (fun p s => p * (side - s)) b.size
  high := (b.place.zipWith (fun p s => p * (side - s)) b.size).zipWith (· + ·) b.size

inductive SyntheticError where
  | negativeBatch
  | imageRange
  | sizeRange
deriving DecidableEq, Repr

namespace Synthetic

def extent {ρ : Type} (d : Detector ρ) : Int :=
  match d.grid.scales with
  | s :: _ => s.size * s.stride
  | [] => 0

def truthCount {ρ : Type} (d : Detector ρ) (wanted : Int) : Nat := (min wanted d.maxTruths).toNat

section Make

variable {F : Precision → Type} [Arithmetic F] (d : Detector (Wide F))

def side : Wide F := ofInt (extent d)

def minSize : F .single := convert ((one / ofInt 10 : Wide F) * side d)

def maxSize : F .single := convert ((half : Wide F) * side d)

section Draw

variable {σ : Type} [RandomSource σ (F .single)]

def drawAxes (low high : F .single) : StateM σ (Axes (F .single)) := do
  let y ← RandomSource.uniform low high
  let x ← RandomSource.uniform low high
  return ⟨y, x⟩

def drawBox : StateM σ (BoxDraw (F .single)) := do
  let size ← drawAxes (minSize d) (maxSize d)
  let place ← drawAxes zero one
  let label ← RandomSource.natural 1 (d.classes + 1)
  return ⟨size, place, label⟩

end Draw

def rowOf (b : BoxDraw (F .single)) : LabelRow (F .single) d.classes :=
  .present (b.corners (convert (side d))) b.label

def rowsOf (bs : List (BoxDraw (F .single))) :
    Vector (LabelRow (F .single) d.classes) d.maxTruths :=
  Vector.ofFn fun i => match bs[i.val]? with
    | some b => rowOf d b
    | none => .absent

def labels (images : List (List (BoxDraw (F .single)))) : Tensor (F .single) :=
  .ofChannelImages (images.map fun bs => (rowsOf d bs).map LabelRow.toVector)

def predictions (images : Nat)
    (entries : Vector (F .single) (images * d.numAnchors * d.predictionWidth)) :
    Tensor (F .single) where
  shape := [images, 1, d.numAnchors, d.predictionWidth]
  data := entries.toArray
  size_data := by simp [Nat.mul_assoc]

def batch {σ : Type} [RandomSource σ (F .single)] (images : Nat) (wanted : Int) :
    StateM σ (TypedTensor F × TypedTensor F) := do
  let entries ← RandomSource.normals (images * d.numAnchors * d.predictionWidth)
  let boxes ← drawMany (drawMany (drawBox d) (truthCount d wanted)) images
  return (.float .single (predictions d images entries), .float .single (labels d boxes))

def beyondDouble : Int := (Nat.pow 2 1024 - Nat.pow 2 970 : Nat)

def largestSingle : Int := (Nat.pow 2 128 - Nat.pow 2 104 : Nat)

/-- Why a batch cannot be drawn: there are no fewer images than none, and the image and the bounds for
its boxes have to be in range. -/
def error? (images wanted : Int) : Option SyntheticError :=
  if images < 0 then some .negativeBatch
  else if beyondDouble ≤ extent d then some .imageRange
  else if 0 < images ∧ 0 < truthCount d wanted ∧
      lt (ofInt largestSingle) ((half : Wide F) * side d) then some .sizeRange
  else none

def batch? {σ : Type} [RandomSource σ (F .single)] (images wanted : Int) (source : σ) :
    Except SyntheticError ((TypedTensor F × TypedTensor F) × σ) :=
  match error? d images wanted with
  | some e => .error e
  | none => .ok ((batch d images.toNat wanted).run source)

end Make

end Synthetic

end AnchorLoss
