import AnchorLoss.Box.Basic

namespace AnchorLoss

open Scalar

/-- What one anchor has been matched to, out of `g` boxes. -/
structure Match (α : Type) (g : Nat) where
  truth : Option (Fin g)
  overlap : α
  positive : Bool

namespace Match

variable {α : Type} [Scalar α] {n g : Nat}

def unmatched : Match α g := ⟨none, zero, false⟩

def improve (b : Fin g) (overlap : α) (m : Match α g) : Match α g :=
  if lt m.overlap overlap then { m with truth := some b, overlap := overlap } else m

/-- A claimed anchor is positive, and keeps the box that it may have already. -/
def claim (b : Fin g) (m : Match α g) : Match α g :=
  { m with positive := true, truth := m.truth.orElse fun _ => some b }

def exceed (threshold overlap : α) (m : Match α g) : Match α g :=
  { m with positive := m.positive || lt threshold overlap }

def meet (threshold : α) (b : Fin g) (overlap : α) (claimed : Bool) (m : Match α g) : Match α g :=
  let m := m.improve b overlap
  (if claimed then m.claim b else m).exceed threshold overlap

def meetAll (threshold : α) (b : Fin g) (column : Vector α n) (ms : Vector (Match α g) n) :
    Vector (Match α g) n :=
  let best := argmax? column
  Vector.ofFn fun a => (ms.get a).meet threshold b (column.get a) (best == some a)

def admits (threshold : α) : Bool := le zero threshold && le threshold one

def thresholdMessage : String := "positive_iou_threshold must lie in [0, 1]"

/-- The matches of all anchors, given the overlap of every anchor with every box. -/
def assign (threshold : α) (overlap : Fin n → Fin g → α) : Vector (Match α g) n :=
  (List.finRange g).foldl
    (fun ms b => meetAll threshold b (Vector.ofFn (overlap · b)) ms)
    (Vector.replicate n unmatched)

def ofBoxes (threshold : α) (anchors : Vector (Box α) n) (boxes : Vector (Box α) g) :
    Vector (Match α g) n :=
  assign threshold fun a b => (anchors.get a).overlap (boxes.get b)

def target (boxes : Vector (Box α) g) (m : Match α g) : Box α :=
  match m.truth with
  | some b => boxes.get b
  | none => ⟨⟨zero, zero⟩, ⟨zero, zero⟩⟩

def positives (ms : Vector (Match α g) n) : Vector Bool n := ms.map Match.positive

end Match

def countTrue {n : Nat} (mask : Vector Bool n) : Nat := mask.toList.count true

end AnchorLoss
