import AnchorLoss.Scalar

namespace AnchorLoss

structure Axes (α : Type) where
  y : α
  x : α

namespace Axes

variable {α β γ : Type}

def map (f : α → β) (a : Axes α) : Axes β := ⟨f a.y, f a.x⟩

def zipWith (f : α → β → γ) (a : Axes α) (b : Axes β) : Axes γ := ⟨f a.y b.y, f a.x b.x⟩

end Axes

structure Box (α : Type) where
  center : Axes α
  size : Axes α

structure Corners (α : Type) where
  low : Axes α
  high : Axes α

/-- Offsets of a box from an anchor: of the centre in units of the anchor's size, and of the size on a
logarithmic scale. -/
abbrev Offsets (α : Type) : Type := Vector α 4

namespace Box

variable {α β : Type}

def map (f : α → β) (b : Box α) : Box β := ⟨b.center.map f, b.size.map f⟩

variable [Scalar α]

open Scalar

def corners (b : Box α) : Corners α where
  low := b.center.zipWith (fun c s => c - half * s) b.size
  high := b.center.zipWith (fun c s => c + half * s) b.size

def ofCorners (c : Corners α) : Box α where
  center := c.low.zipWith (fun a b => (a + b) / ofInt 2) c.high
  size := c.low.zipWith (fun a b => b - a) c.high

def area (b : Box α) : α := b.size.y * b.size.x

def sharedArea (a b : Corners α) : α :=
  let low := a.low.zipWith maximum b.low
  let high := a.high.zipWith minimum b.high
  let extent := high.zipWith (fun h l => maximum (h - l) zero) low
  extent.y * extent.x

/-- The share of the common area in the area of the union; zero where the union has no positive
area. -/
def overlapOf (shared areas : α) : α :=
  let union := areas - shared
  if lt zero union then shared / union else zero

def overlap (a b : Box α) : α := overlapOf (sharedArea a.corners b.corners) (a.area + b.area)

def centerOffset (target anchor size : α) : α := (target - anchor) / size

def sizeOffset (eps target size : α) : α := log (target / size + eps)

def offsets (eps : α) (target anchor : Box α) : Offsets α :=
  #v[centerOffset target.center.y anchor.center.y anchor.size.y,
    centerOffset target.center.x anchor.center.x anchor.size.x,
    sizeOffset eps target.size.y anchor.size.y,
    sizeOffset eps target.size.x anchor.size.x]

end Box

end AnchorLoss
