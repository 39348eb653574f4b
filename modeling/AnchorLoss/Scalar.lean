namespace AnchorLoss

/-- A number type with the operations of the loss, rounded or exact; `le` is the only comparison it has to
supply. -/
class Scalar (α : Type) extends Add α, Sub α, Mul α, Div α, Neg α where
  ofInt : Int → α
  le : α → α → Bool
  exp : α → α
  log : α → α
  sqrt : α → α

namespace Scalar

variable {α : Type} [Scalar α]

def zero : α := ofInt 0

def one : α := ofInt 1

def half : α := ofInt 1 / ofInt 2

def ofNat (n : Nat) : α := ofInt n

def lt (a b : α) : Bool := le a b && !le b a

def eq (a b : α) : Bool := le a b && le b a

def isNaN (a : α) : Bool := !le a a

/-- The larger value; not a number as soon as one of the two is. -/
def maximum (a b : α) : α := if isNaN a || le b a then a else b

def minimum (a b : α) : α := if isNaN a || le a b then a else b

def abs (a : α) : α := maximum a (-a)

def clamp (low high a : α) : α := minimum (maximum a low) high

def sum (xs : List α) : α := xs.foldl (· + ·) zero

/-- Whether `b` displaces `a` as the maximum found so far: it is larger, or the first that is not a
number. -/
def displaces (a b : α) : Bool := !isNaN a && (isNaN b || lt a b)

def argmax {n : Nat} (v : Vector α (n + 1)) : Fin (n + 1) :=
  (List.finRange (n + 1)).foldl (fun b i => if displaces (v.get b) (v.get i) then i else b)
    ⟨0, n.succ_pos⟩

def argmax? : {n : Nat} → Vector α n → Option (Fin n)
  | 0, _ => none
  | _ + 1, v => some (argmax v)

/-- An order for sorting in which values that are not numbers come last and count as equal. -/
def sortLe (a b : α) : Bool := isNaN b || le a b

end Scalar

inductive Precision where
  | single
  | double
deriving DecidableEq, Repr

inductive FloorError where
  | notANumber
  | infinite
deriving DecidableEq, Repr

/-- The number types of the two precisions, with conversions between them. Exact arithmetic uses one
type for both and converts by the identity. -/
class Arithmetic (F : Precision → Type) where
  scalar : ∀ p, Scalar (F p)
  convert : ∀ {p q}, F p → F q
  floor : F .double → Except FloorError Int

instance {F : Precision → Type} [Arithmetic F] (p : Precision) : Scalar (F p) := Arithmetic.scalar p

export Arithmetic (convert)

abbrev Wide (F : Precision → Type) : Type := F .double

end AnchorLoss
