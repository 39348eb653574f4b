import AnchorLoss.Scalar

namespace AnchorLoss

open Float.Model (UnpackedFloat)
open Float.Model.UnpackedFloat (Sign)

instance : Scalar Float where
  ofInt := Float.ofInt
  le := Float.le
  exp := Float.exp
  log := Float.log
  sqrt := Float.sqrt

instance : Scalar Float32 where
  ofInt := Float32.ofInt
  le := Float32.le
  exp := Float32.exp
  log := Float32.log
  sqrt := Float32.sqrt

namespace Binary

def ofDouble (x : Float) : UnpackedFloat := x.toModel.unpack

def ofSingle (x : Float32) : UnpackedFloat := x.toModel.unpack

def toDouble : UnpackedFloat → Float
  | .finite s m e _ => .ofModel (.pack (.round .binary64 s m e))
  | u => .ofModel (.pack u)

def toSingle : UnpackedFloat → Float32
  | .finite s m e _ => .ofModel (.pack (.round .binary32 s m e))
  | u => .ofModel (.pack u)

/-- The integer `±m * 2 ^ e`, rounded down. -/
def floorScaled (s : Sign) (m : Nat) (e : Int) : Int :=
  if 0 ≤ e then s.apply (m * Nat.pow 2 e.toNat : Nat)
  else Int.fdiv (s.apply m) (Nat.pow 2 (-e).toNat)

def truncateScaled (s : Sign) (m : Nat) (e : Int) : Int :=
  s.apply (if 0 ≤ e then m * Nat.pow 2 e.toNat else m / Nat.pow 2 (-e).toNat : Nat)

def floor : UnpackedFloat → Except FloorError Int
  | .finite s m e _ => .ok (floorScaled s m e)
  | .zero _ => .ok 0
  | .infinity _ => .error .infinite
  | .notANumber => .error .notANumber

def truncate : UnpackedFloat → Except FloorError Int
  | .finite s m e _ => .ok (truncateScaled s m e)
  | .zero _ => .ok 0
  | .infinity _ => .error .infinite
  | .notANumber => .error .notANumber

end Binary

abbrev Binary : Precision → Type
  | .single => Float32
  | .double => Float

instance : Arithmetic Binary where
  scalar
    | .single => inferInstanceAs (Scalar Float32)
    | .double => inferInstanceAs (Scalar Float)
  convert {p q} x := match p, q, x with
    | .single, .single, x => x
    | .single, .double, x => Binary.toDouble (Binary.ofSingle x)
    | .double, .single, x => Binary.toSingle (Binary.ofDouble x)
    | .double, .double, x => x
  floor x := Binary.floor (Binary.ofDouble x)

end AnchorLoss
