import AnchorLoss.Decimal.Scientific

namespace AnchorLoss.Decimal

open Float.Model (UnpackedFloat)

/-- The positive numbers that round to a binary64 number, over the denominator `den`; the ends
belong to the interval when the number has an even mantissa. -/
structure Interval where
  low : Nat
  value : Nat
  high : Nat
  den : Nat
  closed : Bool

def Interval.ofBinary (m : Nat) (e : Int) : Interval :=
  let (unit, den) := Decimal.ofBinary 1 (e - 2)
  let below := if m = Nat.pow 2 52 && -1074 < e then 1 else 2
  ⟨(4 * m - below) * unit, 4 * m * unit, (4 * m + 2) * unit, den, m % 2 = 0⟩

def Interval.holds (i : Interval) (num den : Nat) : Bool :=
  let x := num * i.den
  if i.closed then i.low * den ≤ x && x ≤ i.high * den else i.low * den < x && x < i.high * den

/-- The neighbour of the value on the grid of multiples of `10 ^ (-shift)` that lies in the interval
and is nearest, as a multiple of the grid's step. -/
def Interval.onGrid? (i : Interval) (shift : Int) : Option Nat :=
  let (num, den) := scale i.value i.den shift
  let floor := num / den
  let inside (d : Nat) : Bool :=
    let (n, d') := scale d 1 (-shift)
    i.holds n d'
  match inside floor, inside (floor + 1) with
  | false, false => none
  | true, false => some floor
  | false, true => some (floor + 1)
  | true, true => some (roundDiv num den)

def Interval.shortest (i : Interval) (k : Int) : (fuel count : Nat) → Nat × Int
  | 0, count => (i.value / i.den, count)
  | fuel + 1, count =>
    match i.onGrid? (count - 1 - k) with
    | some d => (d, k + 1 - count)
    | none => shortest i k fuel (count + 1)

/-- The number `m * 2 ^ e` as digits `d` and an exponent `q` of the shortest decimal `d * 10 ^ q`;
seventeen digits always suffice. -/
def shortest (m : Nat) (e : Int) : Nat × Int :=
  let i := Interval.ofBinary m e
  i.shortest (exponent i.value i.den) 17 1

def layout (ds : List Char) (k : Int) : String :=
  if k < -4 || 15 < k then String.ofList (pointed ds) ++ exponentText k
  else if k < 0 then String.ofList ('0' :: '.' :: List.replicate (-k - 1).toNat '0' ++ ds)
  else
    let whole := k.toNat + 1
    if whole < ds.length then String.ofList (ds.take whole ++ '.' :: ds.drop whole)
    else String.ofList (ds ++ List.replicate (whole - ds.length) '0' ++ ['.', '0'])

def significantDigits (d : Nat) : List Char :=
  ((digits d).reverse.dropWhile (· == '0')).reverse

def shortestText : UnpackedFloat → String
  | .notANumber => "nan"
  | .infinity s => signText s ++ "inf"
  | .zero s => signText s ++ "0.0"
  | .finite s m e _ =>
    let (d, q) := shortest m e
    signText s ++ layout (significantDigits d) (q + (digits d).length - 1)

end AnchorLoss.Decimal
