import AnchorLoss.Tensor.Arithmetic
import AnchorLoss.Truth

namespace AnchorLoss

namespace Tensor

open Scalar

def halves (a b : TypedTensor Binary) :
    Except TensorError (TypedTensor Binary × TypedTensor Binary) := do
  let joined ← a.joinLast b
  let count := volume joined.shape
  if count % 4 ≠ 0 then throw .mismatch
  let rows ← joined.rearrange (reshape? · [count / 4, 4])
  return (← rows.rearrange (narrow? 1 0 2), ← rows.rearrange (narrow? 1 2 4))

/-- Gives rows of two numbers the shape of a tensor that they belong to. -/
def shapedLike (t : TypedTensor Binary) (rows : FloatTensor Binary) :
    Except TensorError (FloatTensor Binary) :=
  rows.rearrange (reshape? · (t.shape.dropLast ++ [2]))

def centerToCorners (centers sizes : TypedTensor Binary) :
    Except TensorError (FloatTensor Binary × FloatTensor Binary) := do
  let (center, size) ← halves centers sizes
  if center.elementType = .bool then throw .mismatch
  let low ← center.toFractional.zipWith (fun _ c s => c - half * s) size.toFractional
  let high ← center.toFractional.zipWith (fun _ c s => c + half * s) size.toFractional
  return (← shapedLike centers low, ← shapedLike centers high)

def cornersToCenter (low high : TypedTensor Binary) :
    Except TensorError (FloatTensor Binary × FloatTensor Binary) := do
  let (first, second) ← halves low high
  let sum ← first.combine .plus second
  let size ← second.difference first
  let center := sum.toFractional.map fun x => x / ofInt 2
  return (← shapedLike low center, ← shapedLike low size.toFractional)

def areas (sizes : TypedTensor Binary) : Except TensorError (TypedTensor Binary) := do
  let heights ← sizes.select 1 0
  let widths ← sizes.select 1 1
  heights.combine .times widths

def against (axis : Nat) (corners : FloatTensor Binary) : Except TensorError (FloatTensor Binary) :=
  if corners.shape.length < 2 then .error .index else corners.rearrange (insertAxis? axis)

def sharedAreas (a b : FloatTensor Binary × FloatTensor Binary) :
    Except TensorError (FloatTensor Binary) := do
  let low ← (← against 1 a.1).zipWith (fun _ x y => maximum x y) (← against 0 b.1)
  let high ← (← against 1 a.2).zipWith (fun _ x y => minimum x y) (← against 0 b.2)
  let extents ← high.zipWith (fun _ h l => maximum (h - l) zero) low
  let axis := extents.shape.length - 1
  (← extents.rearrange (select? axis 0)).zipWith (fun _ h w => h * w)
    (← extents.rearrange (select? axis 1))

/-- Intersection over union of every row of the first boxes with every row of the second. Second boxes
with a single axis are one box, and the table then has no axis for them. -/
def pairwiseOverlap (centersA sizesA centersB sizesB : TypedTensor Binary) :
    Except TensorError (FloatTensor Binary) := do
  let lone := centersB.shape.length == 1
  let centersB ← if lone then centersB.insertAxis 0 else pure centersB
  let sizesB ← if lone then sizesB.insertAxis 0 else pure sizesB
  let cornersA ← centerToCorners centersA sizesA
  let cornersB ← centerToCorners centersB sizesB
  let shared ← sharedAreas cornersA cornersB
  let areasA ← (← areas sizesA).insertAxis 1
  let areasB ← (← areas sizesB).insertAxis 0
  let total ← areasA.combine .plus areasB
  if total.elementType = .bool then throw .mismatch
  let p := (shared.typed.commonType total).fractional
  let table ← orMismatch (zipWith? Box.overlapOf (shared.typed.toFloat p) (total.toFloat p))
  if lone then
    if table.shape.getD 1 0 = 0 then throw .index
    return ⟨p, ← orMismatch (table.select? 1 0)⟩
  else return ⟨p, table⟩

def encode (eps : Float) (targetCenters targetSizes anchorCenters anchorSizes : TypedTensor Binary) :
    Except TensorError (FloatTensor Binary) := do
  let distances ← targetCenters.difference anchorCenters
  let centers ← distances.quotient anchorSizes
  let ratios ← targetSizes.quotient anchorSizes
  let guarded := ratios.map fun r => log (r + convert (F := Binary) (p := .double) eps)
  return (← centers.typed.joinLast guarded.typed).toFractional

structure Labelled where
  count : Nat
  centers : FloatTensor Binary
  sizes : FloatTensor Binary
  classes : Tensor Nat

def zeros : TypedTensor Binary → Tensor Bool
  | .float _ t => t.map fun x => eq x zero
  | .int64 t | .int32 t => t.map (· == 0)
  | .bool t => t.map not

def greatest (ns : List Int) : Nat :=
  (ns.zipIdx.foldl (fun best (n, i) => match best with
    | some (m, j) => if m < n then some (n, i) else some (m, j)
    | none => some (n, i)) (none : Option (Int × Nat))).elim 0 Prod.snd

def greatestLast (t : TypedTensor Binary) : Except TensorError (Tensor Nat) :=
  match t.shape.getLast? with
  | none | some 0 => .error .index
  | some (k + 1) => orMismatch (match t with
    | .float _ t => (t.vectors? (k + 1)).map (Tensor.map fun v => (argmax v).val)
    | t => (t.toInts.vectors? (k + 1)).map (Tensor.map fun v => greatest v.toList))

/-- The ground truth of label rows, those before the first row whose flag is zero. The flag is the first
entry of a row, the corners are the next four, and the rest are class columns. -/
def groundTruth (rows : TypedTensor Binary) : Except TensorError Labelled := do
  let flags := zeros (← rows.select 1 0)
  let count ← match flags.data.toList.findIdx? id with
    | none => pure (rows.shape.headD 0)
    | some i => if flags.shape.length = 1 then pure i else throw .mismatch
  let present ← rows.rearrange (narrow? 0 0 count)
  let (centers, sizes) ← cornersToCenter (← present.rearrange (narrow? 1 1 3))
    (← present.rearrange (narrow? 1 3 5))
  let classes ← if count = 0 then pure ⟨[0], #[], rfl⟩
    else greatestLast (← present.rearrange (narrow? 1 5 (rows.shape.getD 1 0)))
  return ⟨centers.shape.headD 0, centers, sizes, classes⟩

end Tensor

end AnchorLoss
