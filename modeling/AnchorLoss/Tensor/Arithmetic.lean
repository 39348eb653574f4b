import AnchorLoss.Binary
import AnchorLoss.Tensor.Typed

namespace AnchorLoss

inductive TensorError where
  | mismatch
  | index
  | noMask
  | noMaskAxes
deriving DecidableEq, Repr

def orMismatch {α : Type} : Option α → Except TensorError α
  | some a => .ok a
  | none => .error .mismatch

namespace ElementType

def rank : ElementType → Nat
  | bool => 0
  | int32 => 1
  | int64 => 2
  | float .single => 3
  | float .double => 4

def join (a b : ElementType) : ElementType := if a.rank ≤ b.rank then b else a

def isFloat : ElementType → Bool
  | float _ => true
  | _ => false

def fractional : ElementType → Precision
  | float p => p
  | _ => .single

/-- The type of a tensor with axes combined with one that has none: the latter counts only where it is
of a higher sort, a number beside truth values or a floating-point number beside integers. -/
def dominate (strong weak : ElementType) : ElementType :=
  if strong.isFloat then strong
  else if strong = bool ∨ weak.isFloat then strong.join weak
  else strong

end ElementType

def wrap64 (n : Int) : Int := n.bmod 0x10000000000000000

def wrap32 (n : Int) : Int := n.bmod 0x100000000

def wholePart {p : Precision} (x : Binary p) : Int :=
  match Binary.truncate (Binary.ofDouble (convert (F := Binary) (q := .double) x)) with
  | .ok n => if -0x8000000000000000 ≤ n ∧ n < 0x8000000000000000 then n else -0x8000000000000000
  | .error _ => -0x8000000000000000

structure Operation where
  onFloats : ∀ p, Binary p → Binary p → Binary p
  onInts : Int → Int → Int
  onBools : Bool → Bool → Bool

namespace Operation

def plus : Operation := ⟨fun _ x y => x + y, (· + ·), (· || ·)⟩

def minus : Operation := ⟨fun _ x y => x - y, (· - ·), Bool.xor⟩

def times : Operation := ⟨fun _ x y => x * y, (· * ·), (· && ·)⟩

end Operation

namespace TypedTensor

def commonType (a b : TypedTensor Binary) : ElementType :=
  match a.shape, b.shape with
  | _ :: _, [] => a.elementType.dominate b.elementType
  | [], _ :: _ => b.elementType.dominate a.elementType
  | _, _ => a.elementType.join b.elementType

def toInts : TypedTensor Binary → Tensor Int
  | float _ t => t.map wholePart
  | int64 t | int32 t => t
  | bool t => t.map Bool.toInt

def toBools : TypedTensor Binary → Tensor Bool
  | float _ t => t.map fun x => !Scalar.eq x Scalar.zero
  | int64 t | int32 t => t.map (· != 0)
  | bool t => t

/-- The same values in another type, rounded or wrapped to fit. -/
def cast (type : ElementType) (t : TypedTensor Binary) : TypedTensor Binary :=
  match type with
  | .float p => .float p (t.toFloat p)
  | .int64 => .int64 (t.toInts.map wrap64)
  | .int32 => .int32 (t.toInts.map wrap32)
  | .bool => .bool t.toBools

def toFractional (t : TypedTensor Binary) : FloatTensor Binary :=
  ⟨t.elementType.fractional, t.toFloat _⟩

def rearrange (f : ∀ {α : Type}, Tensor α → Option (Tensor α)) :
    TypedTensor Binary → Except TensorError (TypedTensor Binary)
  | float p t => orMismatch ((f t).map (.float p))
  | int64 t => orMismatch ((f t).map .int64)
  | int32 t => orMismatch ((f t).map .int32)
  | bool t => orMismatch ((f t).map .bool)

def select (axis i : Nat) (t : TypedTensor Binary) : Except TensorError (TypedTensor Binary) :=
  match t.shape[axis]? with
  | none => .error .index
  | some n => if i < n then t.rearrange (Tensor.select? axis i) else .error .index

def insertAxis (axis : Nat) (t : TypedTensor Binary) : Except TensorError (TypedTensor Binary) :=
  if axis ≤ t.shape.length then t.rearrange (Tensor.insertAxis? axis) else .error .index

def combine (op : Operation) (a b : TypedTensor Binary) : Except TensorError (TypedTensor Binary) :=
  orMismatch (match commonType a b with
    | .float p => (Tensor.zipWith? (op.onFloats p) (a.toFloat p) (b.toFloat p)).map (.float p)
    | .int64 => (Tensor.zipWith? (fun x y => wrap64 (op.onInts x y)) a.toInts b.toInts).map .int64
    | .int32 => (Tensor.zipWith? (fun x y => wrap32 (op.onInts x y)) a.toInts b.toInts).map .int32
    | .bool => (Tensor.zipWith? op.onBools a.toBools b.toBools).map .bool)

def difference (a b : TypedTensor Binary) : Except TensorError (TypedTensor Binary) :=
  if a.elementType = .bool ∨ b.elementType = .bool then .error .mismatch else combine .minus a b

def quotient (a b : TypedTensor Binary) : Except TensorError (FloatTensor Binary) :=
  let p := (commonType a b).fractional
  orMismatch ((Tensor.zipWith? (· / ·) (a.toFloat p) (b.toFloat p)).map (⟨p, ·⟩))

/-- Joins two tensors along the last axis. A tensor that has one axis and no entries joins with every
tensor, and adds only its type. -/
def joinLast (a b : TypedTensor Binary) : Except TensorError (TypedTensor Binary) :=
  let type := a.elementType.join b.elementType
  if a.shape = [] ∨ b.shape = [] then .error .mismatch
  else if a.shape = [0] then .ok (b.cast type)
  else if b.shape = [0] then .ok (a.cast type)
  else orMismatch (match type with
    | .float p => (Tensor.joinLast? (a.toFloat p) (b.toFloat p)).map (.float p)
    | .int64 => (Tensor.joinLast? a.toInts b.toInts).map .int64
    | .int32 => (Tensor.joinLast? a.toInts b.toInts).map .int32
    | .bool => (Tensor.joinLast? a.toBools b.toBools).map .bool)

end TypedTensor

namespace FloatTensor

def typed (t : FloatTensor Binary) : TypedTensor Binary := .float t.precision t.tensor

def shape (t : FloatTensor Binary) : List Nat := t.tensor.shape

def map (f : ∀ {p}, Binary p → Binary p) (t : FloatTensor Binary) : FloatTensor Binary :=
  ⟨t.precision, t.tensor.map f⟩

def zipWith (f : ∀ p, Binary p → Binary p → Binary p) (a b : FloatTensor Binary) :
    Except TensorError (FloatTensor Binary) :=
  let p := (a.typed.commonType b.typed).fractional
  orMismatch ((Tensor.zipWith? (f p) (a.typed.toFloat p) (b.typed.toFloat p)).map (⟨p, ·⟩))

def rearrange (f : ∀ {α : Type}, Tensor α → Option (Tensor α)) (t : FloatTensor Binary) :
    Except TensorError (FloatTensor Binary) :=
  orMismatch ((f t.tensor).map (⟨t.precision, ·⟩))

end FloatTensor

end AnchorLoss
