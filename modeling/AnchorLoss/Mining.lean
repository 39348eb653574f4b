import AnchorLoss.Loss
import AnchorLoss.Matching

namespace AnchorLoss

open Scalar

/-- The anchors that count as negatives, with what was decided on the way. -/
structure Mining (n : Nat) where
  negative : Vector Bool n
  kept : Nat
  filtered : Nat

namespace Mining

def positions {n : Nat} (mask : Vector Bool n) : List (Fin n) :=
  (List.finRange n).filter mask.get

def without {n : Nat} (mask : Vector Bool n) (is : List (Fin n)) : Vector Bool n :=
  is.foldl (fun mask (i : Fin n) => mask.set i.val false i.isLt) mask

section Rank

variable {α : Type} [Scalar α] {n : Nat}

/-- The positions by ascending loss, equal losses by position, losses that are not numbers last. -/
def ranked (loss : Vector α n) (is : List (Fin n)) : List (Fin n) :=
  is.mergeSort fun i j => sortLe (loss.get i) (loss.get j)

/-- The candidates of lowest rank, as many as there are over the limit. -/
def dropped (limit : Int) (loss : Vector α n) (candidate : Vector Bool n) : List (Fin n) :=
  let excess := ((countTrue candidate : Int) - limit).toNat
  if excess = 0 then [] else (ranked loss (positions candidate)).take excess

end Rank

section Mine

variable {α : Type} [Scalar α] {n k : Nat}

def objectLabel (positive : Bool) : Fin (k + 1) :=
  ⟨positive.toNat % (k + 1), Nat.mod_lt _ k.succ_pos⟩

def backgroundConfidence (logits : Vector α (k + 1)) : α := (softmax logits)[0]

def candidates (threshold : α) (logits : Vector (Vector α (k + 1)) n) (positive : Vector Bool n) :
    Vector Bool n :=
  Vector.ofFn fun i => !positive.get i && !lt threshold (backgroundConfidence (logits.get i))

/-- Selects the negatives, given how many may be kept. -/
def select (threshold eps : α) (limit : Int) (logits : Vector (Vector α (k + 1)) n)
    (positive : Vector Bool n) : Mining n :=
  let candidate := candidates threshold logits positive
  let loss := Vector.ofFn fun i => labelLoss eps (logits.get i) (objectLabel (positive.get i))
  let dropped := dropped limit loss candidate
  ⟨without candidate dropped, countTrue candidate - dropped.length,
    n - countTrue positive - countTrue candidate⟩

end Mine

def admits {α : Type} [Scalar α] (ratio : α) : Bool := !lt ratio zero

def ratioMessage : String := "negative_ratio must be non-negative"

def limit (F : Precision → Type) [Arithmetic F] (ratio : Wide F) (positives : Nat) :
    Except FloorError Int :=
  Arithmetic.floor (F := F) (ratio * (ofNat positives : Wide F))

end Mining

end AnchorLoss
