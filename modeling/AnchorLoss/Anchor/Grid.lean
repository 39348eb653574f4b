import AnchorLoss.Box.Basic
import AnchorLoss.Config.Basic

namespace AnchorLoss

/-- One feature map: its number of rows and columns, the distance of its cells, and the size of its
anchors. -/
structure Scale (ρ : Type) where
  size : Int
  stride : Int
  anchorSize : ρ

structure Grid (ρ : Type) where
  scales : List (Scale ρ)
  ratios : List ρ

inductive GridFormError where
  | scaleCount
  | noRatio
deriving DecidableEq, Repr

def GridFormError.message : GridFormError → String
  | scaleCount => "feature_map_sizes, strides and anchor_sizes must have the same length"
  | noRatio => "At least one aspect ratio is required"

inductive GridError where
  | noScale
  | negativeSize
  | strideRange
  | negativeRatio
  | zeroRatio
deriving DecidableEq, Repr

inductive PositionError where
  | scale (scale : Int)
  | cell (row col ratio scale : Int)
deriving DecidableEq, Repr

def PositionError.message : PositionError → String
  | .scale s => s!"Scale index {s} out of range"
  | .cell row col ratio s =>
    s!"Anchor position ({row}, {col}, {ratio}) out of range for scale {s}"

namespace Grid

variable {ρ : Type}

def ofLists (sizes strides : List Int) (anchorSizes ratios : List ρ) : Grid ρ where
  scales := (sizes.zip (strides.zip anchorSizes)).map fun (n, s, a) => ⟨n, s, a⟩
  ratios := ratios

def ofConfig (c : LossConfig Int ρ) : Except GridFormError (Grid ρ) :=
  if c.mapSizes.length = c.strides.length ∧ c.strides.length = c.anchorSizes.length then
    if c.aspectRatios.isEmpty then .error .noRatio
    else .ok (ofLists c.mapSizes c.strides c.anchorSizes c.aspectRatios)
  else .error .scaleCount

def cells (s : Scale ρ) : Nat := s.size.natAbs * s.size.natAbs

def cellCount : List (Scale ρ) → Nat
  | [] => 0
  | s :: rest => cells s + cellCount rest

def numAnchors (g : Grid ρ) : Nat := cellCount g.scales * g.ratios.length

def indexOf (g : Grid ρ) (scale row col ratio : Int) : Except PositionError Nat :=
  match if scale < 0 then none else g.scales[scale.toNat]? with
  | none => .error (.scale scale)
  | some s =>
    if 0 ≤ row ∧ row < s.size ∧ 0 ≤ col ∧ col < s.size ∧ 0 ≤ ratio ∧ ratio < g.ratios.length then
      let before := cellCount (g.scales.take scale.toNat) * g.ratios.length
      .ok (before + (row.toNat * s.size.toNat + col.toNat) * g.ratios.length + ratio.toNat)
    else .error (.cell row col ratio scale)

section Generate

variable {F : Precision → Type} [Arithmetic F]

open Scalar

def cellCenter (stride : Int) (i : Nat) : F .single := (ofNat i + half) * ofInt stride

/-- The size of the anchors of a ratio: height over width is the ratio, the area that of a square. -/
def anchorExtent (anchorSize ratio : Wide F) : Axes (F .single) :=
  ⟨convert (anchorSize * sqrt ratio), convert (anchorSize / sqrt ratio)⟩

def boxesAt (s : Scale (Wide F)) (ratios : List (Wide F)) (row col : Nat) : List (Box (F .single)) :=
  ratios.map fun r => ⟨⟨cellCenter s.stride row, cellCenter s.stride col⟩, anchorExtent s.anchorSize r⟩

def boxesOf (s : Scale (Wide F)) (ratios : List (Wide F)) : List (Box (F .single)) :=
  (List.range s.size.natAbs).flatMap fun row =>
    (List.range s.size.natAbs).flatMap fun col => boxesAt s ratios row col

def boxes (g : Grid (Wide F)) : List (Box (F .single)) := g.scales.flatMap (boxesOf · g.ratios)

theorem length_boxesOf (s : Scale (Wide F)) (ratios : List (Wide F)) :
    (boxesOf s ratios).length = cells s * ratios.length := by
  simp [boxesOf, boxesAt, cells, List.length_flatMap, List.map_const', Nat.mul_assoc]

theorem length_boxes (g : Grid (Wide F)) : g.boxes.length = g.numAnchors := by
  obtain ⟨scales, ratios⟩ := g
  simp only [boxes, numAnchors, List.length_flatMap, length_boxesOf]
  induction scales with
  | nil => simp [cellCount]
  | cons s rest ih => simp_all [cellCount, Nat.add_mul]

def ratioError? (ratio : Wide F) : Option GridError :=
  if lt ratio zero then some .negativeRatio
  else if eq (sqrt ratio) zero then some .zeroRatio
  else none

/-- Strides are held in words of 64 bits, signed or unsigned. -/
def strideFits (stride : Int) : Bool :=
  -0x8000000000000000 ≤ stride && stride < 0x10000000000000000

def scaleError? (ratios : List (Wide F)) (s : Scale (Wide F)) : Option GridError :=
  if s.size < 0 then some .negativeSize
  else if !strideFits s.stride then some .strideRange
  else ratios.findSome? ratioError?

def error? (g : Grid (Wide F)) : Option GridError :=
  if g.scales.isEmpty then some .noScale else g.scales.findSome? (scaleError? g.ratios)

def anchors (g : Grid (Wide F)) : Except GridError (Vector (Box (F .single)) g.numAnchors) :=
  match g.error? with
  | some e => .error e
  | none => .ok ⟨g.boxes.toArray, by simpa using g.length_boxes⟩

end Generate

end Grid

end AnchorLoss
