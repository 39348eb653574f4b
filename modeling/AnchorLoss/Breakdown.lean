import AnchorLoss.Scalar

namespace AnchorLoss

open Scalar

/-- Confidence and location terms of the anchor refinement head and of the detection head. -/
structure Breakdown (ρ : Type) where
  armConf : ρ
  armLoc : ρ
  odmConf : ρ
  odmLoc : ρ

namespace Breakdown

def map {ρ σ : Type} (f : ρ → σ) (b : Breakdown ρ) : Breakdown σ :=
  ⟨f b.armConf, f b.armLoc, f b.odmConf, f b.odmLoc⟩

variable {ρ : Type} [Scalar ρ]

def empty : Breakdown ρ := ⟨zero, zero, zero, zero⟩

def total (b : Breakdown ρ) : ρ := b.armConf + b.armLoc + b.odmConf + b.odmLoc

def terms (b : Breakdown ρ) : List ρ := [b.armConf, b.armLoc, b.odmConf, b.odmLoc]

def meanOf (term : Breakdown ρ → ρ) (items : List (Breakdown ρ)) : ρ :=
  sum (items.map term) / ofNat items.length

def mean (items : List (Breakdown ρ)) : Breakdown ρ :=
  if items.isEmpty then empty
  else ⟨meanOf armConf items, meanOf armLoc items, meanOf odmConf items, meanOf odmLoc items⟩

end Breakdown

end AnchorLoss
