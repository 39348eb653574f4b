import AnchorLoss.Scalar

namespace AnchorLoss

/-- A source with states `σ` that draws numbers of type `α`: between two bounds, a number of normally
distributed ones at once, and natural numbers from a lower bound on and below an upper one. -/
class RandomSource (σ : Type) (α : outParam Type) where
  uniform : α → α → StateM σ α
  normals : (count : Nat) → StateM σ (Vector α count)
  natural : Nat → Nat → StateM σ Nat

def drawMany {σ β : Type} (draw : StateM σ β) (count : Nat) : StateM σ (List β) :=
  (List.replicate count ()).mapM fun _ => draw

end AnchorLoss
