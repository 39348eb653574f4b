import AnchorLoss.Binary
import AnchorLoss.Decimal.Round

namespace AnchorLoss.Decimal

open Float.Model (UnpackedFloat)
open Float.Model.UnpackedFloat (Sign)

/-- The number as `count` significant digits `d` and an exponent `k`, its rounded value being
`d * 10 ^ (k + 1 - count)`. -/
def significant (count num den : Nat) : Nat × Int :=
  let k := exponent num den
  let (n, d) := scale num den (count - 1 - k)
  let rounded := roundDiv n d
  if rounded < Nat.pow 10 count then (rounded, k) else (rounded / 10, k + 1)

def signText : Sign → String
  | .negative => "-"
  | .positive => ""

def pointed : List Char → List Char
  | d :: rest@(_ :: _) => d :: '.' :: rest
  | ds => ds

def exponentText (k : Int) : String :=
  let ds := digits k.natAbs
  String.ofList ('e' :: (if k < 0 then '-' else '+') :: (if ds.length < 2 then '0' :: ds else ds))

def scientific (count : Nat) : UnpackedFloat → String
  | .notANumber => "nan"
  | .infinity s => signText s ++ "inf"
  | .zero _ => "0"
  | .finite s m e _ =>
    let (num, den) := ofBinary m e
    let (d, k) := significant count num den
    signText s ++ String.ofList (pointed (digits d)) ++ exponentText k

def padLeft (width : Nat) (ds : List Char) : List Char :=
  List.replicate (width - ds.length) '0' ++ ds

def fixedQuotient (places num den : Nat) : String :=
  let ds := padLeft (places + 1) (digits (roundDiv (num * Nat.pow 10 places) den))
  let (whole, fraction) := ds.splitAt (ds.length - places)
  String.ofList (if places = 0 then whole else whole ++ '.' :: fraction)

def fixed (places : Nat) : UnpackedFloat → String
  | .notANumber => "nan"
  | .infinity s => signText s ++ "inf"
  | .zero s => signText s ++ fixedQuotient places 0 1
  | .finite s m e _ =>
    let (num, den) := ofBinary m e
    signText s ++ fixedQuotient places num den

end AnchorLoss.Decimal
