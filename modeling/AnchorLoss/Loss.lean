import AnchorLoss.Scalar

namespace AnchorLoss

open Scalar

variable {α : Type} [Scalar α] {n k : Nat}

def rowMaximum (row : Vector α k) : α :=
  match row.toList with
  | [] => zero
  | x :: xs => xs.foldl maximum x

def softmax (row : Vector α k) : Vector α k :=
  let top := rowMaximum row
  let powers := row.map fun x => exp (x - top)
  let total := sum powers.toList
  powers.map (· / total)

def labelLoss (eps : α) (logits : Vector α k) (label : Fin k) : α :=
  -log ((softmax logits).get label + eps)

def oneHot (label : Fin k) : Vector α k := Vector.ofFn fun j => if j = label then one else zero

def labelGradient (logits : Vector α k) (label : Fin k) : Vector α k :=
  (softmax logits).zipWith (· - ·) (oneHot label)

def huber (d : α) : α :=
  let m := abs d
  if lt m one then half * m * m else m - half

def huberGradient (d : α) : α := clamp (-one) one d

def rowError (prediction target : Vector α k) : α :=
  sum (prediction.zipWith (fun p t => huber (p - t)) target).toList

def maskedSum (mask : Vector Bool n) (term : Fin n → α) : α :=
  sum (Vector.ofFn fun i => if mask.get i then term i else zero).toList

/-- The entries of the rows that the mask selects, zero in the others, divided by the normalizer. -/
def maskedRows (normalizer : α) (mask : Vector Bool n) (row : Fin n → Vector α k) :
    Vector (Vector α k) n :=
  Vector.ofFn fun i => (if mask.get i then row i else Vector.replicate k zero).map (· / normalizer)

def crossEntropy (eps : α) (logits : Vector (Vector α k) n) (labels : Vector (Fin k) n)
    (mask : Vector Bool n) : α :=
  maskedSum mask fun i => labelLoss eps (logits.get i) (labels.get i)

def crossEntropyGradient (normalizer : α) (logits : Vector (Vector α k) n)
    (labels : Vector (Fin k) n) (mask : Vector Bool n) : Vector (Vector α k) n :=
  maskedRows normalizer mask fun i => labelGradient (logits.get i) (labels.get i)

def smoothError (predictions targets : Vector (Vector α k) n) (mask : Vector Bool n) : α :=
  maskedSum mask fun i => rowError (predictions.get i) (targets.get i)

/-- The derivative of `smoothError` by the predictions, divided by the normalizer. -/
def smoothErrorGradient (normalizer : α) (predictions targets : Vector (Vector α k) n)
    (mask : Vector Bool n) : Vector (Vector α k) n :=
  maskedRows normalizer mask fun i =>
    (predictions.get i).zipWith (fun p t => huberGradient (p - t)) (targets.get i)

end AnchorLoss
