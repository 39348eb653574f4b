import AnchorLoss.Box.Basic

namespace AnchorLoss

open Scalar

def background {k : Nat} : Fin (k + 1) := ⟨0, k.succ_pos⟩

/-- A label row with `k + 1` classes, the background among them. -/
structure LabelRow (α : Type) (k : Nat) where
  presence : α
  corners : Corners α
  classes : Vector α (k + 1)

structure Truth (α : Type) (k : Nat) where
  box : Box α
  label : Fin (k + 1)

variable {α : Type} {k : Nat}

def LabelRow.ofVector (row : Vector α (5 + (k + 1))) : LabelRow α k where
  presence := row[0]
  corners := ⟨⟨row[1], row[2]⟩, ⟨row[3], row[4]⟩⟩
  classes := Vector.ofFn fun j => row[5 + j.val]

def LabelRow.toVector (row : LabelRow α k) : Vector α (5 + (k + 1)) :=
  #v[row.presence, row.corners.low.y, row.corners.low.x, row.corners.high.y, row.corners.high.x] ++
    row.classes

variable [Scalar α]

def LabelRow.absent : LabelRow α k :=
  ⟨zero, ⟨⟨zero, zero⟩, ⟨zero, zero⟩⟩, Vector.replicate (k + 1) zero⟩

def LabelRow.present (corners : Corners α) (label : Nat) : LabelRow α k :=
  ⟨one, corners, Vector.ofFn fun j => if j.val = label then one else zero⟩

def LabelRow.isPresent (row : LabelRow α k) : Bool := !eq row.presence zero

def LabelRow.truth (row : LabelRow α k) : Truth α k := ⟨.ofCorners row.corners, argmax row.classes⟩

/-- The boxes of the rows before the first absent one. -/
def Truth.ofRows (rows : List (LabelRow α k)) : List (Truth α k) :=
  (rows.takeWhile LabelRow.isPresent).map LabelRow.truth

end AnchorLoss
