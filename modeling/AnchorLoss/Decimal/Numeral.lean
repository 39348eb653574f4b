import AnchorLoss.Binary
import AnchorLoss.Text.Digit

namespace AnchorLoss.Decimal

open Text

/-- Text of ASCII alone keeps its characters; in other text wide blanks become spaces and digits of
all scripts become ASCII digits, and any other wide character spoils the numeral. -/
def plainChars (cs : List Char) : Option (List Char) :=
  if cs.all (fun c => c.toNat < 128) then some cs
  else cs.mapM fun c =>
    if c.toNat < 127 then some c
    else if isWideBlank c then some ' '
    else (digitValue? c).map fun d => Char.ofNat (48 + d)

def trimBlanks (cs : List Char) : List Char :=
  ((cs.dropWhile isAsciiBlank).reverse.dropWhile isAsciiBlank).reverse

def takeSign : List Char → Bool × List Char
  | '-' :: cs => (true, cs)
  | '+' :: cs => (false, cs)
  | cs => (false, cs)

/-- The characters without underscores, provided that each underscore stands between two digits. -/
def dropUnderscores (afterDigit : Bool) : List Char → Option (List Char)
  | [] => some []
  | '_' :: c :: cs =>
    if afterDigit && c.isDigit then (dropUnderscores true cs).map (c :: ·) else none
  | '_' :: [] => none
  | c :: cs => (dropUnderscores c.isDigit cs).map (c :: ·)

def digitsValue (cs : List Char) : Nat := cs.foldl (fun n c => 10 * n + (c.toNat - 48)) 0

def maxIntegerDigits : Nat := 4300

def integerOfChars? (cs : List Char) : Option Int := do
  let cs ← plainChars cs
  let (negative, body) := takeSign (trimBlanks cs)
  let ds ← dropUnderscores false body
  if ds.isEmpty || !ds.all Char.isDigit || maxIntegerDigits < ds.length then none
  else some (if negative then -(digitsValue ds : Int) else digitsValue ds)

def integer? (s : String) : Option Int := integerOfChars? s.toList

inductive Base where
  | binary
  | octal
  | hexadecimal
deriving DecidableEq, Repr

namespace Base

def toNat : Base → Nat
  | binary => 2
  | octal => 8
  | hexadecimal => 16

def letter : Base → Char
  | binary => 'b'
  | octal => 'o'
  | hexadecimal => 'x'

def dropMark (b : Base) : List Char → List Char
  | '0' :: c :: cs => if c.toLower = b.letter then cs else '0' :: c :: cs
  | cs => cs

def digit? (b : Base) (c : Char) : Option Nat := (hexDigitValue? c).filter (· < b.toNat)

end Base

def integerIn? (b : Base) (cs : List Char) : Option Int := do
  let cs ← plainChars cs
  let (negative, body) := takeSign (trimBlanks cs)
  let ds ← (b.dropMark body).mapM b.digit?
  if ds.isEmpty then none
  else
    let n := ds.foldl (fun n d => b.toNat * n + d) 0
    some (if negative then -(n : Int) else n)

def unsigned? (cs : List Char) : Option (Nat × Int) :=
  let whole := cs.takeWhile Char.isDigit
  let rest := cs.dropWhile Char.isDigit
  let (fraction, rest) := match rest with
    | '.' :: cs => (cs.takeWhile Char.isDigit, cs.dropWhile Char.isDigit)
    | cs => ([], cs)
  let mantissa := digitsValue (whole ++ fraction)
  if whole.isEmpty && fraction.isEmpty then none
  else match rest with
    | [] => some (mantissa, -(fraction.length : Int))
    | e :: cs =>
      let (negative, ds) := takeSign cs
      if (e == 'e' || e == 'E') && !ds.isEmpty && ds.all Char.isDigit then
        let k : Int := digitsValue ds
        some (mantissa, (if negative then -k else k) - fraction.length)
      else none

def nearest (m : Nat) (e : Int) : Float :=
  if 0 ≤ e then Float.ofScientific m false e.toNat else Float.ofScientific m true (-e).toNat

def infinity : Float := Binary.toDouble (.infinity .positive)

def notANumber : Float := Binary.toDouble .notANumber

def numberOfChars? (cs : List Char) : Option Float := do
  let cs ← plainChars cs
  let cs ← dropUnderscores false (trimBlanks cs)
  let (negative, body) := takeSign cs
  let magnitude ← match String.ofList (body.map Char.toLower) with
    | "inf" | "infinity" => some infinity
    | "nan" => some notANumber
    | _ => (unsigned? body).map fun (m, e) => nearest m e
  some (if negative then -magnitude else magnitude)

def number? (s : String) : Option Float := numberOfChars? s.toList

end AnchorLoss.Decimal
