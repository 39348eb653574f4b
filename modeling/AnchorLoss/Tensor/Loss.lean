import AnchorLoss.Loss
import AnchorLoss.Tensor.Arithmetic

namespace AnchorLoss

namespace Tensor

open Scalar

def lastLength (shape : List Nat) : Nat := shape.getLast?.getD 1

def hasSoftmax (logits : TypedTensor Binary) : Bool :=
  logits.elementType.isFloat || volume logits.shape == 0

def flags : TypedTensor Binary → Except TensorError (Tensor Bool)
  | .bool t => .ok t
  | _ => .error .mismatch

def masked {p : Precision} (mask : TypedTensor Binary) (t : Tensor (Binary p)) :
    Except TensorError (Tensor (Binary p)) := do
  orMismatch (zipWith? (fun selected x => if selected then x else zero) (← flags mask) t)

def total {p : Precision} (t : Tensor (Binary p)) : FloatTensor Binary :=
  ⟨p, .ofScalar (sum t.data.toList)⟩

def cornerIndex : (outer inner : List Nat) → (i : Nat) → Nat
  | d :: ds, s :: ss, i => i % s + d * cornerIndex ds ss (i / s)
  | _, _, _ => 0

/-- The row that each label is read in. Labels have the axes of the logits but the last, and may cover a
part of them only. -/
def labelledRow? (logits labels : List Nat) (i : Nat) : Option Nat :=
  let rows := logits.dropLast
  if max 1 logits.length = labels.length + 1 ∧ (labels.zip rows).all fun (m, n) => m ≤ n then
    some (cornerIndex rows.reverse labels.reverse i)
  else none

def column? (k : Nat) (label : Int) : Option (Fin k) :=
  if h : 0 ≤ label ∧ label.toNat < k then some ⟨label.toNat, h.2⟩ else none

/-- The loss of every label. Without labels, logits of any shape will do. -/
def labelLosses (eps : Float) (logits labels : TypedTensor Binary) :
    Except TensorError (FloatTensor Binary) := do
  if !hasSoftmax logits then throw .mismatch
  let ⟨p, entries⟩ := logits.toFractional
  let labels := labels.toInts
  let rows ← orMismatch (entries.vectors? (lastLength entries.shape))
  let losses ← orMismatch (labels.data.toList.zipIdx.mapM fun (label, i) => do
    let row ← rows.data[← labelledRow? entries.shape labels.shape i]?
    return labelLoss (convert (F := Binary) (p := .double) eps) row (← column? _ label))
  return ⟨p, ← orMismatch (ofArray? labels.shape losses.toArray)⟩

def crossEntropy (eps : Float) (logits labels : TypedTensor Binary)
    (mask : Option (TypedTensor Binary)) : Except TensorError (FloatTensor Binary) := do
  let losses ← labelLosses eps logits labels
  match mask with
  | none => return total losses.tensor
  | some mask => return total (← masked mask losses.tensor)

def crossEntropyPerRow (eps : Float) (logits labels : TypedTensor Binary) :
    Except TensorError (FloatTensor Binary) := do
  let losses ← labelLosses eps logits labels
  if losses.shape.isEmpty then throw .index
  return losses

def crossEntropyGradient (normalizer : Float) (logits labels : TypedTensor Binary)
    (mask : Option (TypedTensor Binary)) : Except TensorError (FloatTensor Binary) := do
  if !hasSoftmax logits then throw .mismatch
  let some k := logits.shape.getLast? | throw .index
  let labels := labels.toInts
  let columns ← orMismatch (labels.data.toList.mapM (column? k))
  if k = 0 || logits.elementType == .bool then throw .mismatch
  let ⟨p, entries⟩ := logits.toFractional
  let rows ← orMismatch (entries.vectors? k)
  let chosen ← orMismatch (ofArray? labels.shape columns.toArray)
  let gradients ← orMismatch (zipWith? labelGradient rows chosen)
  let divided := fun (row : Vector (Binary p) k) =>
    row.map (· / convert (F := Binary) (p := .double) normalizer)
  match mask with
  | none => return ⟨p, ofVectors (gradients.map divided)⟩
  | some mask =>
    let gradients ← orMismatch (zipWith? (fun selected row =>
      if selected then row else Vector.replicate k zero) (← flags mask) gradients)
    return ⟨p, ofVectors (gradients.map divided)⟩

def smoothError (predictions targets : TypedTensor Binary) (mask : Option (TypedTensor Binary)) :
    Except TensorError (FloatTensor Binary) := do
  let type := predictions.elementType.join targets.elementType
  let p := type.fractional
  let errors ← orMismatch (zipWith? (fun x y : Binary p => huber (x - y)) (predictions.toFloat p)
    (targets.toFloat p))
  if !type.isFloat then throw .mismatch
  let rows ← orMismatch (errors.vectors? (lastLength errors.shape))
  let some mask := mask | throw .noMask
  return total (← masked mask (rows.map fun row => sum row.toList))

def smoothErrorGradient (normalizer : Float) (predictions targets : TypedTensor Binary)
    (mask : Option (TypedTensor Binary)) :
    Except TensorError (FloatTensor Binary × FloatTensor Binary) := do
  let differences ← predictions.difference targets
  let ⟨p, clamped⟩ := differences.toFractional.map huberGradient
  let some mask := mask | throw .noMaskAxes
  let mask ← mask.insertAxis mask.shape.length
  let chosen ← masked mask clamped
  let gradient := chosen.map (· / convert (F := Binary) (p := .double) normalizer)
  let axis := gradient.shape.length - 1
  return (⟨p, ← orMismatch (gradient.narrow? axis 0 2)⟩, ⟨p, ← orMismatch (gradient.narrow? axis 2 4)⟩)

end Tensor

end AnchorLoss
