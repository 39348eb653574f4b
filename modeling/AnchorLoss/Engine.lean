import AnchorLoss.Item
import AnchorLoss.Tensor.Typed

namespace AnchorLoss

open Scalar

inductive TensorRole where
  | prediction
  | label
deriving DecidableEq, Repr

def TensorRole.name : TensorRole → String
  | prediction => "Prediction"
  | label => "Label"

inductive ShapeError where
  | rank (role : TensorRole) (shape : List Nat)
  | channelAxis (role : TensorRole) (size : Nat)
  | notFloating (type : ElementType)
  | emptyBatch
  | predictionWidth (expected found : Nat)
  | anchorCount (expected found : Nat)
  | labelWidth (expected found : Nat)
  | truthCount (expected found : Nat)
  | batchSize (predictions labels : Nat)
deriving DecidableEq, Repr

def renderShape : List Nat → String
  | [n] => s!"({n},)"
  | ns => "(" ++ ", ".intercalate (ns.map toString) ++ ")"

def ShapeError.message : ShapeError → String
  | rank role shape => s!"{role.name} tensor must be 3-D or 4-D, got shape {renderShape shape}"
  | channelAxis role n => s!"{role.name} tensor channel axis must be 1, got {n}"
  | notFloating type => s!"Prediction tensor must be floating point, got {type.name}"
  | emptyBatch => "Prediction tensor has an empty batch dimension"
  | predictionWidth e n => s!"Prediction last axis must be {e} wide, got {n}"
  | anchorCount e n => s!"Prediction tensor must cover {e} anchors, got {n}"
  | labelWidth e n => s!"Label last axis must be {e} wide, got {n}"
  | truthCount e n => s!"Label tensor must hold {e} boxes per image, got {n}"
  | batchSize p l => s!"Batch size mismatch: predictions {p} vs labels {l}"

/-- The two shapes in which a batch of matrices may come: plain, or with a channel axis of one
entry. -/
inductive Form where
  | plain
  | channel
deriving DecidableEq, Repr

def Form.shape (form : Form) (images rows width : Nat) : List Nat :=
  match form with
  | .plain => [images, rows, width]
  | .channel => [images, 1, rows, width]

structure BatchShape where
  form : Form
  images : Nat
  rows : Nat
  width : Nat

def BatchShape.toList (s : BatchShape) : List Nat := s.form.shape s.images s.rows s.width

theorem BatchShape.volume_toList (s : BatchShape) :
    volume s.toList = s.images * s.rows * s.width := by
  cases s with
  | mk form b n w => cases form <;> simp [toList, Form.shape, Nat.mul_assoc]

def batchShape (role : TensorRole) (shape : List Nat) :
    Except ShapeError { s : BatchShape // s.toList = shape } :=
  match shape with
  | [b, n, w] => .ok ⟨⟨.plain, b, n, w⟩, rfl⟩
  | [b, c, n, w] =>
    if h : c = 1 then .ok ⟨⟨.channel, b, n, w⟩, by simp [BatchShape.toList, Form.shape, h]⟩
    else .error (.channelAxis role c)
  | _ => .error (.rank role shape)

structure Image (α : Type) (n k : Nat) where
  heads : Vector (Heads α k) n
  rows : List (LabelRow α k)

structure Batch (F : Precision → Type) (n k : Nat) where
  precision : Precision
  form : Form
  images : List (Image (F precision) n k)

section Validate

variable {F : Precision → Type} [Arithmetic F] {d : Detector (Wide F)}

def imageOf {α : Type} {n m k : Nat} (predictions : Vector (Vector α (10 + (k + 1))) n)
    (labels : Vector (Vector α (5 + (k + 1))) m) : Image α n k where
  heads := predictions.map Heads.ofVector
  rows := (labels.map LabelRow.ofVector).toList

structure Fit (d : Detector (Wide F)) (p l : BatchShape) : Prop where
  nonempty : p.images ≠ 0
  predictionWidth : p.width = d.predictionWidth
  anchors : p.rows = d.numAnchors
  labelWidth : l.width = d.labelWidth
  truths : l.rows = d.maxTruths
  images : l.images = p.images

def fit (d : Detector (Wide F)) (p l : BatchShape) : Except ShapeError (PLift (Fit d p l)) :=
  if h₀ : p.images = 0 then .error .emptyBatch
  else if h₁ : p.width ≠ d.predictionWidth then
    .error (.predictionWidth d.predictionWidth p.width)
  else if h₂ : p.rows ≠ d.numAnchors then .error (.anchorCount d.numAnchors p.rows)
  else if h₃ : l.width ≠ d.labelWidth then .error (.labelWidth d.labelWidth l.width)
  else if h₄ : l.rows ≠ d.maxTruths then .error (.truthCount d.maxTruths l.rows)
  else if h₅ : l.images ≠ p.images then .error (.batchSize p.images l.images)
  else .ok ⟨⟨h₀, Decidable.not_not.1 h₁, Decidable.not_not.1 h₂, Decidable.not_not.1 h₃,
    Decidable.not_not.1 h₄, Decidable.not_not.1 h₅⟩⟩

def imagesOf {α : Type} {p l : BatchShape} (f : Fit d p l) (predictions labels : Tensor α)
    (hp : p.toList = predictions.shape) (hl : l.toList = labels.shape) :
    List (Image α d.numAnchors d.classes) :=
  (predictions.images p.images d.numAnchors d.predictionWidth
      (by rw [← hp, p.volume_toList, f.anchors, f.predictionWidth])).zipWith imageOf
    (labels.images l.images d.maxTruths d.labelWidth
      (by rw [← hl, l.volume_toList, f.truths, f.labelWidth]))

/-- Accepts tensors that fit the detector. The labels take on the precision of the predictions. -/
def validate (d : Detector (Wide F)) (predictions labels : TypedTensor F) :
    Except ShapeError (Batch F d.numAnchors d.classes) := do
  let ⟨p, hp⟩ ← batchShape .prediction predictions.shape
  let ⟨l, hl⟩ ← batchShape .label labels.shape
  match predictions, hp with
  | .float precision t, hp =>
    let ⟨f⟩ ← fit d p l
    .ok ⟨precision, p.form,
      imagesOf f t (labels.toFloat precision) hp (by rw [hl, TypedTensor.shape_toFloat])⟩
  | other, _ => .error (.notFloating other.elementType)

end Validate

structure PassImage (F : Precision → Type) (p : Precision) (n k : Nat) where
  heads : Vector (Heads (F p) k) n
  item : Item F p n k

structure Pass (F : Precision → Type) (n k : Nat) where
  precision : Precision
  form : Form
  images : List (PassImage F precision n k)

namespace Pass

variable {F : Precision → Type} {n k : Nat}

def shape (pass : Pass F n k) : List Nat := pass.form.shape pass.images.length n (10 + (k + 1))

variable [Arithmetic F]

def breakdowns (pass : Pass F n k) : List (Breakdown (Wide F)) :=
  pass.images.map fun i => i.item.breakdown

def breakdown (pass : Pass F n k) : Breakdown (Wide F) := Breakdown.mean pass.breakdowns

def loss (pass : Pass F n k) : FloatScalar F where
  precision := pass.precision
  value := sum (pass.images.map fun i => i.item.terms.total) / ofNat pass.images.length

/-- The gradient of the mean loss by the predictions, as a batch of matrices. -/
def gradient (d : Detector (Wide F)) (pass : Pass F n k) : FloatTensor F where
  precision := pass.precision
  tensor := (Tensor.ofImages (pass.images.map fun i => i.item.gradient d i.heads)).map
    (· / ofNat pass.images.length)

end Pass

structure SavedPass (F : Precision → Type) (n k : Nat) where
  pass : Pass F n k
  consumed : Bool

/-- The state of the machine for one detector: all passes in the order in which they were saved, the
number of the current one, and the terms of the last one. -/
structure Engine (F : Precision → Type) (d : Detector (Wide F)) where
  saved : List (SavedPass F d.numAnchors d.classes)
  current : Option Nat
  lastBreakdown : Option (Breakdown (Wide F))

inductive ForwardError where
  | shape (e : ShapeError)
  | grid (e : GridError)
  | mining (e : FloorError)
deriving DecidableEq, Repr

inductive BackwardError where
  | noForward
  | consumed
  | factorShape
  | gradientShape
deriving DecidableEq, Repr

def BackwardError.message? : BackwardError → Option String
  | noForward => some "backward called without a preceding forward pass"
  | consumed => some "Loss state has already been consumed by a backward pass"
  | factorShape | gradientShape => none

namespace Engine

variable {F : Precision → Type} {d : Detector (Wide F)}

def initial (d : Detector (Wide F)) : Engine F d := ⟨[], none, none⟩

def state (e : Engine F d) : Option (SavedPass F d.numAnchors d.classes) :=
  e.current.bind fun id => e.saved[id]?

variable [Arithmetic F]

def passOf (batch : Batch F d.numAnchors d.classes) :
    Except ForwardError (Pass F d.numAnchors d.classes) := do
  let anchors ← (Grid.anchors (F := F) d.grid).mapError .grid
  let boxes : Vector (Box (F batch.precision)) d.numAnchors := anchors.map (·.map convert)
  let images ← batch.images.mapM fun image =>
    ((Item.forward d boxes image.heads (Truth.ofRows image.rows)).map
      (PassImage.mk image.heads)).mapError .mining
  .ok ⟨batch.precision, batch.form, images⟩

def save (e : Engine F d) (pass : Pass F d.numAnchors d.classes) : Engine F d where
  saved := e.saved ++ [⟨pass, false⟩]
  current := some e.saved.length
  lastBreakdown := some pass.breakdown

/-- The loss of a batch. Refused tensors leave the machine as it was; a later failure has already
dropped the current pass. -/
def forward (e : Engine F d) (predictions labels : TypedTensor F) :
    Except ForwardError (FloatScalar F) × Engine F d :=
  match validate d predictions labels with
  | .error s => (.error (.shape s), e)
  | .ok batch => match passOf batch with
    | .error x => (.error x, { e with current := none })
    | .ok pass => (.ok pass.loss, e.save pass)

def consume (e : Engine F d) (id : Nat) : Engine F d where
  saved := e.saved.modify id fun s => { s with consumed := true }
  current := if e.current = some id then none else e.current
  lastBreakdown := e.lastBreakdown

/-- The gradient of a saved pass, or of the current one where none is named, times a factor. The pass
is used up before the gradient is brought into the shape of the predictions. -/
def backward (e : Engine F d) (which : Option Nat) (factor : Factor F) :
    Except BackwardError (FloatTensor F) × Engine F d :=
  match which.orElse fun _ => e.current with
  | none => (.error .noForward, e)
  | some id => match e.saved[id]? with
    | none => (.error .noForward, e)
    | some s =>
      if s.consumed then (.error .consumed, e)
      else match factor.scale? (s.pass.gradient d) with
        | none => (.error .factorShape, e)
        | some g => match g.tensor.reshape? s.pass.shape with
          | none => (.error .gradientShape, e.consume id)
          | some t => (.ok ⟨g.precision, t⟩, e.consume id)

end Engine

end AnchorLoss
