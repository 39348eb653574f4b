import AnchorLoss.Breakdown
import AnchorLoss.Detector
import AnchorLoss.Mining
import AnchorLoss.Truth

namespace AnchorLoss

open Scalar

/-- The predictions of one anchor by the anchor refinement head and the detection head. -/
structure Heads (α : Type) (k : Nat) where
  armOffsets : Offsets α
  armLogits : Vector α 2
  odmOffsets : Offsets α
  odmLogits : Vector α (k + 1)

namespace Heads

variable {α : Type} {k : Nat}

def ofVector (row : Vector α (10 + (k + 1))) : Heads α k where
  armOffsets := #v[row[0], row[1], row[2], row[3]]
  armLogits := #v[row[4], row[5]]
  odmOffsets := #v[row[6], row[7], row[8], row[9]]
  odmLogits := Vector.ofFn fun j => row[10 + j.val]

def toVector (h : Heads α k) : Vector α (10 + (k + 1)) :=
  h.armOffsets ++ h.armLogits ++ h.odmOffsets ++ h.odmLogits

end Heads

/-- What is recorded of one image with `n` anchors: which anchors are positive and which take part in
the classification of the detection head, their class labels and box targets, and the loss terms. -/
structure Item (F : Precision → Type) (p : Precision) (n k : Nat) where
  positive : Vector Bool n
  used : Vector Bool n
  labels : Vector (Fin (k + 1)) n
  targets : Vector (Offsets (F p)) n
  numPositives : Nat
  terms : Breakdown (F p)

inductive AnchorLabel where
  | positive
  | negative
  | ignored
deriving DecidableEq, Repr

def AnchorLabel.code : AnchorLabel → Int
  | positive => 1
  | negative => 0
  | ignored => -1

def AnchorLabel.ofMasks (positive used : Bool) : AnchorLabel :=
  if positive then .positive else if used then .negative else .ignored

namespace Item

variable {F : Precision → Type} {p : Precision} {n k : Nat}

def anchorLabels (item : Item F p n k) : Vector AnchorLabel n :=
  item.positive.zipWith AnchorLabel.ofMasks item.used

def numNegatives (item : Item F p n k) : Nat :=
  countTrue (item.positive.zipWith (fun pos used => used && !pos) item.used)

variable [Arithmetic F]

def breakdown (item : Item F p n k) : Breakdown (Wide F) := item.terms.map convert

section Record

variable (d : Detector (Wide F)) (anchors : Vector (Box (F p)) n)

def boxesOf (truths : List (Truth (F p) k)) : Vector (Box (F p)) truths.length :=
  ⟨(truths.map Truth.box).toArray, by simp⟩

def assign (truths : List (Truth (F p) k)) : Vector (Match (F p) truths.length) n :=
  Match.ofBoxes (convert d.iouThreshold) anchors (boxesOf truths)

def classOf (truths : List (Truth (F p) k)) (m : Match (F p) truths.length) : Fin (k + 1) :=
  match m.truth with
  | some b => (truths.get b).label
  | none => background

def targetsOf (truths : List (Truth (F p) k)) (ms : Vector (Match (F p) truths.length) n) :
    Vector (Offsets (F p)) n :=
  let eps : F p := convert d.epsilon
  Vector.ofFn fun a => Box.offsets eps ((ms.get a).target (boxesOf truths)) (anchors.get a)

/-- The class labels; the negatives that were kept are background. -/
def labelsOf (truths : List (Truth (F p) k)) (ms : Vector (Match (F p) truths.length) n)
    (negative : Vector Bool n) : Vector (Fin (k + 1)) n :=
  Vector.ofFn fun a => if negative.get a then background else classOf truths (ms.get a)

def mine (heads : Vector (Heads (F p) k) n) (positive : Vector Bool n) :
    Except FloorError (Mining n) :=
  (Mining.limit F d.negativeRatio (countTrue positive)).map fun limit =>
    Mining.select (convert d.backgroundThreshold) (convert d.epsilon) limit
      (heads.map Heads.armLogits) positive

def armNormalizer (positives : Nat) : F p := convert ((ofNat positives : Wide F) * d.armDivider)

def armLabels (positive : Vector Bool n) : Vector (Fin 2) n := positive.map Mining.objectLabel

def termsOf (heads : Vector (Heads (F p) k) n) (positive used : Vector Bool n)
    (labels : Vector (Fin (k + 1)) n) (targets : Vector (Offsets (F p)) n) (positives : Nat) :
    Breakdown (F p) :=
  if positives = 0 then .empty
  else
    let eps : F p := convert d.epsilon
    { armConf := crossEntropy eps (heads.map Heads.armLogits) (armLabels positive)
        (Vector.replicate n true) / armNormalizer d positives
      armLoc := smoothError (heads.map Heads.armOffsets) targets positive / ofNat positives
      odmConf := crossEntropy eps (heads.map Heads.odmLogits) labels used / ofNat positives
      odmLoc := smoothError (heads.map Heads.odmOffsets) targets positive / ofNat positives }

def forward (heads : Vector (Heads (F p) k) n) (truths : List (Truth (F p) k)) :
    Except FloorError (Item F p n k) :=
  let ms := assign d anchors truths
  let positive := Match.positives ms
  let positives := countTrue positive
  (mine d heads positive).map fun mining =>
    let used := positive.zipWith (· || ·) mining.negative
    let labels := labelsOf truths ms mining.negative
    let targets := targetsOf d anchors truths ms
    ⟨positive, used, labels, targets, positives,
      termsOf d heads positive used labels targets positives⟩

end Record

def gradient (d : Detector (Wide F)) (heads : Vector (Heads (F p) k) n) (item : Item F p n k) :
    Vector (Vector (F p) (10 + (k + 1))) n :=
  if item.numPositives = 0 then Vector.replicate n (Vector.replicate _ zero)
  else
    let positives : F p := ofNat item.numPositives
    let armOffsets :=
      smoothErrorGradient positives (heads.map Heads.armOffsets) item.targets item.positive
    let armLogits := crossEntropyGradient (armNormalizer d item.numPositives)
      (heads.map Heads.armLogits) (armLabels item.positive) (Vector.replicate n true)
    let odmOffsets :=
      smoothErrorGradient positives (heads.map Heads.odmOffsets) item.targets item.positive
    let odmLogits :=
      crossEntropyGradient positives (heads.map Heads.odmLogits) item.labels item.used
    Vector.ofFn fun a =>
      Heads.toVector ⟨armOffsets.get a, armLogits.get a, odmOffsets.get a, odmLogits.get a⟩

end Item

end AnchorLoss
