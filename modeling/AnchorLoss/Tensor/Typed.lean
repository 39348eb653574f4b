import AnchorLoss.Tensor.Basic

namespace AnchorLoss

inductive ElementType where
  | float (p : Precision)
  | int64
  | int32
  | bool
deriving DecidableEq, Repr

def ElementType.name : ElementType → String
  | float .single => "torch.float32"
  | float .double => "torch.float64"
  | int64 => "torch.int64"
  | int32 => "torch.int32"
  | bool => "torch.bool"

/-- A tensor of floating-point numbers, of integers of one of two sizes, or of truth values. -/
inductive TypedTensor (F : Precision → Type) where
  | float (p : Precision) (t : Tensor (F p))
  | int64 (t : Tensor Int)
  | int32 (t : Tensor Int)
  | bool (t : Tensor Bool)

namespace TypedTensor

variable {F : Precision → Type}

def shape : TypedTensor F → List Nat
  | float _ t => t.shape
  | int64 t | int32 t => t.shape
  | bool t => t.shape

def elementType : TypedTensor F → ElementType
  | float p _ => .float p
  | int64 _ => .int64
  | int32 _ => .int32
  | bool _ => .bool

variable [Arithmetic F]

def toFloat (q : Precision) : TypedTensor F → Tensor (F q)
  | float _ t => t.map convert
  | int64 t | int32 t => t.map Scalar.ofInt
  | bool t => t.map fun b => Scalar.ofInt b.toInt

theorem shape_toFloat (q : Precision) (t : TypedTensor F) : (t.toFloat q).shape = t.shape := by
  cases t <;> rfl

end TypedTensor

structure FloatScalar (F : Precision → Type) where
  precision : Precision
  value : F precision

structure FloatTensor (F : Precision → Type) where
  precision : Precision
  tensor : Tensor (F precision)

/-- The precision of a combination: the higher one, unless its tensor has no axes and the other has
some. -/
def Precision.common (p : Precision) (pAxes : Nat) (q : Precision) (qAxes : Nat) : Precision :=
  if pAxes = 0 ∧ qAxes ≠ 0 then q
  else if qAxes = 0 ∧ pAxes ≠ 0 then p
  else if p = .single then q
  else p

/-- The factor that a gradient is multiplied by: a number, or a tensor that is broadcast. -/
inductive Factor (F : Precision → Type) where
  | number (x : Wide F)
  | tensor (t : TypedTensor F)

namespace Factor

variable {F : Precision → Type} [Arithmetic F]

def scale? (u : Factor F) (g : FloatTensor F) : Option (FloatTensor F) :=
  match u with
  | .number x =>
    let factor : F g.precision := convert x
    some ⟨g.precision, g.tensor.map (· * factor)⟩
  | .tensor t =>
    let p := match t with
      | .float q s => Precision.common g.precision g.tensor.shape.length q s.shape.length
      | _ => g.precision
    (Tensor.zipWith? (· * ·) (g.tensor.map convert) (t.toFloat p)).map fun r => ⟨p, r⟩

end Factor

end AnchorLoss
